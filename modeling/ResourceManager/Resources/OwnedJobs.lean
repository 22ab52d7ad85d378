import ResourceManager.Resources.Types
import ResourceManager.HashTable.Table

/-!
# Jobs of the local scheduler: `owned_jobs.c`

The coordinator's side of a job: the petitions in the order of the request, how many of
them have been sent (`nextReserveIdx`) and which have been granted. The array
`petitions[MAX_JOB_RESOURCES]` is the list of its first `petition_count` entries. Where the
source searches the table and writes through the pointer, the functions below use
`Tabla.modificar`. `time(NULL)` is the argument `now`.
-/

namespace ResourceManager

open HashTable

/-- `job_petition_t`. -/
structure JobPetition where
  ip : Ip
  port : UInt32
  type : Resource
  quantity : UInt32
  isGranted : Bool
deriving DecidableEq

/-- The address a petition is sent to. -/
abbrev JobPetition.addr (p : JobPetition) : Addr := ⟨p.ip, p.port⟩

/-- `elem_owned_job_t`. -/
structure ElemOwnedJob where
  jobId : UInt32
  ownerSocket : UInt32
  grantNotified : Bool
  createdAt : Int
  petitions : List JobPetition
  nextReserveIdx : Nat
deriving DecidableEq

/-- `MAX_JOB_RESOURCES`. -/
def maxJobResources : Nat := 50

/-- `JOB_TIMEOUT`, in seconds. -/
def jobTimeout : Int := 20

/-- `comp_owned_job`. -/
def compOwnedJob (a b : ElemOwnedJob) : Int := if a.jobId ≠ b.jobId then 1 else 0

/-- `hash_owned_job`. -/
def hashOwnedJob (elem : ElemOwnedJob) : UInt32 := elem.jobId

def ownedJobFns : Funciones ElemOwnedJob := ⟨compOwnedJob, hashOwnedJob⟩

theorem igual_ownedJob {a b : ElemOwnedJob} : Igual ownedJobFns a b ↔ a.jobId = b.jobId := by
  simp [Igual, ownedJobFns, compOwnedJob]

instance : Legal ownedJobFns :=
  Legal.ofKey (fun job => job.jobId) (fun _ _ => igual_ownedJob) fun _ _ h => h

abbrev OwnedJobs := Tabla ownedJobFns

/-- `create_owned_jobs`. -/
def createOwnedJobs : OwnedJobs := Tabla.crear ownedJobFns 11 Tabla.eleven_pos

/-! ## Registration -/

/-- The `dummy` with which the functions below search the table. -/
def dummyJob (jobId : UInt32) : ElemOwnedJob := ⟨jobId, 0, false, 0, [], 0⟩

/-- The record of the job `jobId`. -/
def OwnedJobs.job (jobs : OwnedJobs) (jobId : UInt32) : Option ElemOwnedJob :=
  jobs.buscar (dummyJob jobId)

/-- A write to the record of `jobId` that leaves the id. -/
def OwnedJobs.update (jobs : OwnedJobs) (jobId : UInt32) (g : ElemOwnedJob → ElemOwnedJob)
    (hg : ∀ job, (g job).jobId = job.jobId) : OwnedJobs :=
  jobs.modificar (dummyJob jobId) g fun job => igual_ownedJob.mpr (hg job)

/-- `add_new_owned_job`. -/
def addNewOwnedJob (jobs : OwnedJobs) (now : Int) (jobId ownerSocket : UInt32) : OwnedJobs :=
  jobs.insertar ⟨jobId, ownerSocket, false, now, [], 0⟩

/-- `get_job_owner_socket`. -/
def getJobOwnerSocket (jobs : OwnedJobs) (jobId : UInt32) : UInt32 :=
  match jobs.job jobId with
  | none => 0
  | some job => job.ownerSocket

/-- A new entry at the end of `petitions`. -/
def ElemOwnedJob.append (job : ElemOwnedJob) (ip : Ip) (port : UInt32) (type : Resource)
    (quantity : UInt32) : ElemOwnedJob :=
  { job with petitions := job.petitions ++ [⟨ip, port, type, quantity, false⟩] }

theorem ElemOwnedJob.jobId_append (ip : Ip) (port : UInt32) (type : Resource)
    (quantity : UInt32) (job : ElemOwnedJob) :
    (job.append ip port type quantity).jobId = job.jobId := rfl

/-- `append_petition_to_job`. -/
def appendPetitionToJob (jobs : OwnedJobs) (jobId : UInt32) (ip : Ip) (port : UInt32)
    (type : Resource) (quantity : UInt32) : OwnedJobs :=
  match jobs.job jobId with
  | none => jobs
  | some job =>
    if maxJobResources ≤ job.petitions.length then jobs
    else jobs.update jobId (fun job => job.append ip port type quantity)
      (ElemOwnedJob.jobId_append ip port type quantity)

/-! ## Answers of the remote nodes -/

/-- The record after `petitions[idx].is_granted = 1`, with `grant_notified` set when that
was the last petition. -/
def ElemOwnedJob.grant (idx : Nat) (job : ElemOwnedJob) : ElemOwnedJob :=
  let petitions := job.petitions.modify idx fun p => { p with isGranted := true }
  let allGranted := petitions.all fun p => p.isGranted
  { job with petitions := petitions, grantNotified := job.grantNotified || allGranted }

theorem ElemOwnedJob.jobId_grant (idx : Nat) (job : ElemOwnedJob) :
    (job.grant idx).jobId = job.jobId := rfl

/-- `mark_petition_as_granted`: `-1` ignored, `0` accepted, `1` the job is complete. -/
def markPetitionAsGranted (jobs : OwnedJobs) (jobId : UInt32) (ip : Ip) (port : UInt32) :
    OwnedJobs × Int :=
  match jobs.job jobId with
  | none => (jobs, -1)
  | some job =>
    if job.nextReserveIdx = 0 then (jobs, -1)
    else
      let idx := job.nextReserveIdx - 1
      match job.petitions[idx]? with
      | none => (jobs, -1)
      | some petition =>
        if petition.port ≠ port ∨ petition.ip ≠ ip then (jobs, -1)
        else if petition.isGranted then (jobs, -1)
        else
          (jobs.update jobId (ElemOwnedJob.grant idx) (ElemOwnedJob.jobId_grant idx),
            if !job.grantNotified && (job.grant idx).grantNotified then 1 else 0)

/-! ## Messages to send -/

/-- The record after `next_reserve_idx++`. -/
def ElemOwnedJob.advance (job : ElemOwnedJob) : ElemOwnedJob :=
  { job with nextReserveIdx := job.nextReserveIdx + 1 }

theorem ElemOwnedJob.jobId_advance (job : ElemOwnedJob) : job.advance.jobId = job.jobId := rfl

/-- `get_next_reserve`: the petition to be sent next. -/
def getNextReserve (jobs : OwnedJobs) (jobId : UInt32) : OwnedJobs × Option JobPetition :=
  match jobs.job jobId with
  | none => (jobs, none)
  | some job =>
    match job.petitions[job.nextReserveIdx]? with
    | none => (jobs, none)
    | some petition =>
      (jobs.update jobId ElemOwnedJob.advance ElemOwnedJob.jobId_advance, some petition)

/-- The petitions that `get_granted_resources` copies out of a record. -/
def ElemOwnedJob.granted (maxSize : Nat) (job : ElemOwnedJob) : List JobPetition :=
  (job.petitions.take job.nextReserveIdx).foldl
    (fun arr p => Tabla.recolectar maxSize (fun p => p.isGranted) id p arr) []

/-- `get_granted_resources`. -/
def getGrantedResources (jobs : OwnedJobs) (jobId : UInt32) (maxSize : Nat) :
    List JobPetition :=
  match jobs.job jobId with
  | none => []
  | some job => job.granted maxSize

/-- `remove_owned_job`. -/
def removeOwnedJob (jobs : OwnedJobs) (jobId : UInt32) : OwnedJobs :=
  jobs.eliminar (dummyJob jobId)

/-! ## Fault tolerance -/

/-- `get_jobs_affected_by_dead_node`, with the visitor `check_job_for_dead_node`. -/
def getJobsAffectedByDeadNode (jobs : OwnedJobs) (deadIp : Ip) (deadPort : UInt32)
    (maxSize : Nat) : List UInt32 :=
  jobs.visitarExtra
    (Tabla.recolectar maxSize
      (fun job => job.petitions.any fun p => p.port = deadPort ∧ p.ip = deadIp)
      fun job => job.jobId) []

/-- `collect_timed_out_jobs`, with the visitor `check_timeout_job`. -/
def collectTimedOutJobs (jobs : OwnedJobs) (now : Int) (maxSize : Nat) : List UInt32 :=
  jobs.visitarExtra
    (Tabla.recolectar maxSize
      (fun job => !job.grantNotified && decide (jobTimeout < now - job.createdAt))
      fun job => job.jobId) []

/-- `get_jobs_by_owner_socket`, with the visitor `check_orphaned_jobs`. -/
def getJobsByOwnerSocket (jobs : OwnedJobs) (socket : UInt32) (maxSize : Nat) : List UInt32 :=
  jobs.visitarExtra
    (Tabla.recolectar maxSize (fun job => job.ownerSocket = socket) fun job => job.jobId) []

/-! ## What the operations do to the records -/

section Records

variable (jobs : OwnedJobs)

theorem job_eq_some {jobs : OwnedJobs} {j : UInt32} {job : ElemOwnedJob} :
    jobs.job j = some job ↔ job ∈ jobs.datos ∧ job.jobId = j := by
  rw [OwnedJobs.job, Tabla.buscar_eq_some, igual_ownedJob]
  rfl

theorem jobId_of_job {jobs : OwnedJobs} {j : UInt32} {job : ElemOwnedJob}
    (h : jobs.job j = some job) : job.jobId = j := (job_eq_some.mp h).2

@[simp] theorem job_createOwnedJobs (j : UInt32) : createOwnedJobs.job j = none := by
  rw [OwnedJobs.job, createOwnedJobs, Tabla.buscar_eq_none, Tabla.datos_nuevo]
  simp

@[simp] theorem job_addNewOwnedJob (now : Int) (j owner k : UInt32) :
    (addNewOwnedJob jobs now j owner).job k =
      if j = k then some ⟨j, owner, false, now, [], 0⟩ else jobs.job k := by
  rw [OwnedJobs.job, addNewOwnedJob, Tabla.buscar_insertar]
  simp only [igual_ownedJob]
  rfl

@[simp] theorem job_removeOwnedJob (j k : UInt32) :
    (removeOwnedJob jobs j).job k = if j = k then none else jobs.job k := by
  rw [OwnedJobs.job, removeOwnedJob, Tabla.buscar_eliminar]
  simp only [igual_ownedJob]
  rfl

@[simp] theorem job_update (j k : UInt32) (g : ElemOwnedJob → ElemOwnedJob)
    (hg : ∀ job, (g job).jobId = job.jobId) :
    (jobs.update j g hg).job k = if j = k then (jobs.job k).map g else jobs.job k := by
  rw [OwnedJobs.job, OwnedJobs.update, Tabla.buscar_modificar]
  simp only [igual_ownedJob]
  cases hk : jobs.buscar (dummyJob k) with
  | none => simp [OwnedJobs.job, hk]
  | some job =>
    have hjob : job.jobId = k := jobId_of_job hk
    have hd : (dummyJob j).jobId = j := rfl
    by_cases hjk : j = k
    · subst hjk
      simp [OwnedJobs.job, hk, hjob, hd]
    · simp [OwnedJobs.job, hk, hjob, hd, hjk, Ne.symm hjk]

theorem granted_eq (max : Nat) (job : ElemOwnedJob) :
    job.granted max =
      ((job.petitions.take job.nextReserveIdx).filter fun p => p.isGranted).take max := by
  rw [ElemOwnedJob.granted, Tabla.foldl_recolectar max _ id _ [] (Nat.zero_le _), List.map_id,
    List.nil_append]

theorem getGrantedResources_eq {jobs : OwnedJobs} {j : UInt32} {job : ElemOwnedJob}
    (h : jobs.job j = some job) (max : Nat) :
    getGrantedResources jobs j max = job.granted max := by
  rw [getGrantedResources, h]

theorem getGrantedResources_none {jobs : OwnedJobs} {j : UInt32} (h : jobs.job j = none)
    (max : Nat) : getGrantedResources jobs j max = [] := by
  rw [getGrantedResources, h]

end Records

end ResourceManager
