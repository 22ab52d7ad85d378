import ResourceManager.Resources.Types
import ResourceManager.Resources.Queues
import ResourceManager.HashTable.Table

/-!
# Local resources: `local_resource.c`

The inventory of a node, the reservations it has granted (`active_jobs`) and the requests
that wait (`request_queue`). The functions of the source take the inventory and the table
as two pointers; `LocalNode` is the pair. Quantities, ids and sockets are `unsigned`, with
the wrap-around arithmetic of `UInt32`.
-/

namespace ResourceManager

open HashTable Queue

/-! ## Reservations and requests -/

/-- `elem_active_job_t`. -/
structure ElemActiveJob where
  jobId : UInt32
  socket : UInt32
  resourceQuantity : UInt32
  resourceType : Resource
deriving DecidableEq

/-- `elem_job_request_t`. -/
structure ElemJobRequest where
  jobId : UInt32
  socket : UInt32
  resourceQuantity : UInt32
  resourceType : Resource
deriving DecidableEq

/-- `comp_active_job`. -/
def compActiveJob (a b : ElemActiveJob) : Int :=
  if a.jobId ≠ b.jobId ∨ a.socket ≠ b.socket ∨ a.resourceType ≠ b.resourceType then 1 else 0

/-- `hash_active_job`. -/
def hashActiveJob (e : ElemActiveJob) : UInt32 :=
  (e.jobId * 31 + e.socket) * 3 + e.resourceType.toUInt32

def activeJobFns : Funciones ElemActiveJob := ⟨compActiveJob, hashActiveJob⟩

theorem igual_activeJob {a b : ElemActiveJob} : Igual activeJobFns a b ↔
    a.jobId = b.jobId ∧ a.socket = b.socket ∧ a.resourceType = b.resourceType := by
  simp only [Igual, activeJobFns, compActiveJob]
  split
  · rename_i h
    exact iff_of_false one_ne_zero (by tauto)
  · rename_i h
    exact iff_of_true rfl (by tauto)

instance : Legal activeJobFns :=
  Legal.ofKey (fun e => (e.jobId, e.socket, e.resourceType))
    (fun _ _ => by rw [igual_activeJob, Prod.mk.injEq, Prod.mk.injEq]) fun a b h => by
    simp only [Prod.mk.injEq] at h
    simp only [activeJobFns, hashActiveJob, h.1, h.2.1, h.2.2]

abbrev ActiveJobs := Tabla activeJobFns

/-- `create_active_jobs_table`. -/
def createActiveJobsTable : ActiveJobs := Tabla.crear activeJobFns 11 Tabla.eleven_pos

/-- `comp_job_request`. -/
def compJobRequest (a b : ElemJobRequest) : Int :=
  if a.jobId ≠ b.jobId ∨ a.resourceType ≠ b.resourceType ∨ a.socket ≠ b.socket then 1 else 0

/-- `comp_job_request_by_socket`. -/
def compJobRequestBySocket (a : ElemJobRequest) (targetSocket : UInt32) : Int :=
  if a.socket ≠ targetSocket then 1 else 0

theorem compJobRequest_eq_zero {a b : ElemJobRequest} : compJobRequest a b = 0 ↔
    a.jobId = b.jobId ∧ a.resourceType = b.resourceType ∧ a.socket = b.socket := by
  simp only [compJobRequest]
  split
  · rename_i h
    exact iff_of_false one_ne_zero (by tauto)
  · rename_i h
    exact iff_of_true rfl (by tauto)

theorem compJobRequestBySocket_eq_zero {a : ElemJobRequest} {s : UInt32} :
    compJobRequestBySocket a s = 0 ↔ a.socket = s := by
  simp [compJobRequestBySocket]

/-! ## The inventory -/

/-- `local_resources_t`. -/
structure LocalResources where
  total : Resource → UInt32
  avail : Resource → UInt32
  requestQueue : Resource → List ElemJobRequest

/-- The inventory of a node and its table of reservations. -/
structure LocalNode where
  resources : LocalResources
  activeJobs : ActiveJobs

/-- `create_local_resource`. -/
def createLocalResource (cpu gpu ram : UInt32) : LocalResources :=
  let total : Resource → UInt32
    | .cpu => cpu
    | .gpu => gpu
    | .ram => ram
  { total := total, avail := total, requestQueue := fun _ => [] }

/-- The inventory and the table that `init_node` creates. -/
def createLocalNode (cpu gpu ram : UInt32) : LocalNode :=
  ⟨createLocalResource cpu gpu ram, createActiveJobsTable⟩

namespace LocalNode

variable (s : LocalNode)

abbrev total (t : Resource) : UInt32 := s.resources.total t
abbrev avail (t : Resource) : UInt32 := s.resources.avail t
abbrev queue (t : Resource) : List ElemJobRequest := s.resources.requestQueue t
/-- The reservations in the table, in the order of the slots. -/
abbrev held : List ElemActiveJob := s.activeJobs.datos

/-- `avail[type] -= quantity` and the insertion of the reservation: the two statements
that every grant executes. -/
def take (id socket quantity : UInt32) (type : Resource) : LocalNode where
  resources := { s.resources with
    avail := Function.update s.resources.avail type (s.resources.avail type - quantity) }
  activeJobs := s.activeJobs.insertar ⟨id, socket, quantity, type⟩

/-- `avail[...] += ...` for the reservation `job`, and the deletion of `key`: the two
statements with which every reclamation ends. -/
def giveBack (job key : ElemActiveJob) : LocalNode where
  resources := { s.resources with
    avail := Function.update s.resources.avail job.resourceType
      (s.resources.avail job.resourceType + job.resourceQuantity) }
  activeJobs := s.activeJobs.eliminar key

/-- A write of `request_queue[type]`. -/
def setQueue (type : Resource) (q : List ElemJobRequest) : LocalNode where
  resources := { s.resources with
    requestQueue := Function.update s.resources.requestQueue type q }
  activeJobs := s.activeJobs

end LocalNode

/-! ## Reservations and the waiting queues -/

/-- `new_job_request`: `-1` refused, `0` queued, `1` granted. -/
def newJobRequest (s : LocalNode) (id socket quantity : UInt32) (type : Resource) :
    LocalNode × Int :=
  if quantity > s.total type then (s, -1)
  else if s.avail type < quantity then
    (s.setQueue type (queueAdd (s.queue type) ⟨id, socket, quantity, type⟩), 0)
  else (s.take id socket quantity type, 1)

/-- The first element of the queue that does not ask for more than `avail`. -/
def firstFitting (avail : UInt32) : List ElemJobRequest → Option ElemJobRequest
  | [] => none
  | actElem :: act =>
    if avail < actElem.resourceQuantity then firstFitting avail act else some actElem

/-- The grant of the queued request `r` of the queue `type`. -/
def grantQueued (s : LocalNode) (type : Resource) (r : ElemJobRequest) : LocalNode :=
  (s.take r.jobId r.socket r.resourceQuantity type).setQueue type
    (queueDelete (fun x => compJobRequest x r) (s.queue type))

/-- The outer loop of `chk_job_request` over the types still to be tried. `out` is the id
granted last, as an `int`; the loop goes on while it is `-1`. -/
def chkLoop : List Resource → LocalNode → Int32 → UInt32 → LocalNode × Int32 × UInt32
  | [], s, out, outSocket => (s, out, outSocket)
  | type :: types, s, out, outSocket =>
    if out = -1 then
      match firstFitting (s.avail type) (s.queue type) with
      | none => chkLoop types s out outSocket
      | some r => chkLoop types (grantQueued s type r) r.jobId.toInt32 r.socket
    else (s, out, outSocket)

/-- `chk_job_request`, when `rand()` returns `rnd`: the new state, the returned id and the
socket written to `*out_socket`. -/
def chkJobRequest (s : LocalNode) (rnd : Nat) (outSocket : UInt32) :
    LocalNode × Int32 × UInt32 :=
  let init := rnd % 3
  chkLoop [Resource.ofIndex (init % 3), Resource.ofIndex ((init + 1) % 3),
    Resource.ofIndex ((init + 2) % 3)] s (-1) outSocket

/-! ## Release -/

/-- One iteration of `del_active_job`. -/
def delActiveJobType (jobId socket : UInt32) (s : LocalNode) (type : Resource) : LocalNode :=
  let dummy : ElemActiveJob := ⟨jobId, socket, 0, type⟩
  match s.activeJobs.buscar dummy with
  | none => s
  | some jobActual => s.giveBack jobActual dummy

/-- `del_active_job`. -/
def delActiveJob (s : LocalNode) (jobId socket : UInt32) : LocalNode :=
  Resource.all.foldl (delActiveJobType jobId socket) s

/-- A purge of `request_queue[type]`. -/
def purgeQueue (coincide : ElemJobRequest → Bool)
    (compare : ElemJobRequest → ElemJobRequest → Int) (s : LocalNode) (type : Resource) :
    LocalNode :=
  s.setQueue type ((purgar coincide compare (pasosPurga (s.queue type).length) (s.queue type)
    (s.queue type)).getD (s.queue type))

/-- `del_pending_job_requests`. -/
def delPendingJobRequests (s : LocalNode) (jobId socket : UInt32) : LocalNode :=
  Resource.all.foldl
    (purgeQueue (fun e => e.jobId = jobId ∧ e.socket = socket) compJobRequest) s

/-- The capacity of the array `to_delete`. -/
def maxSweep : Nat := 100

/-- The reservations of `socket` that `check_dead_socket` collects. -/
def sweep (s : LocalNode) (socket : UInt32) : List ElemActiveJob :=
  s.activeJobs.visitarExtra (Tabla.recolectar maxSweep (fun job => job.socket = socket) id) []

/-- `free_all_resources_from_socket`. -/
def freeAllResourcesFromSocket (s : LocalNode) (socket : UInt32) : LocalNode :=
  let s := (sweep s socket).foldl (fun s deadJob => s.giveBack deadJob deadJob) s
  Resource.all.foldl
    (purgeQueue (fun e => e.socket = socket) fun x _ => compJobRequestBySocket x socket) s

/-- `get_local_resources`: cpu, gpu and memory available. -/
def getLocalResources (s : LocalNode) : UInt32 × UInt32 × UInt32 :=
  (s.avail .cpu, s.avail .gpu, s.avail .ram)

end ResourceManager
