import ResourceManager.Scheduler.Packets
import Mathlib.Data.List.Sort

/-!
# Requests of the scheduler: `generate_job_request`

The outcomes of `rand:uniform` are a parameter, `Draws`. A port is an integer or its text,
as `build_job_request` expects.
-/

namespace ResourceManager.Scheduler

/-! ## Resources -/

/-- The atom of a resource. -/
inductive ResourceName where
  | cpu
  | mem
  | gpu
deriving DecidableEq

/-- `atom_to_list`. -/
def ResourceName.toList : ResourceName → List Char
  | cpu => "cpu".toList
  | mem => "mem".toList
  | gpu => "gpu".toList

/-- `resource_order`. -/
def resourceOrder : ResourceName → ℕ
  | .cpu => 1
  | .mem => 2
  | .gpu => 3

inductive Port where
  | integer (n : ℤ)
  | text (s : List Char)
deriving DecidableEq

/-- `{Ip, Port, Resource, Amount}`. -/
structure Petition where
  ip : List Char
  port : Port
  name : ResourceName
  amount : ℤ
deriving DecidableEq

/-! ## The line -/

/-- `integer_to_list`. -/
def integerToList (n : ℤ) : List Char :=
  if n < 0 then '-' :: Nat.toDigits 10 n.natAbs else Nat.toDigits 10 n.natAbs

/-- `build_job_request`. -/
def buildJobRequest (p : Petition) (acc : List Char) : List Char :=
  let portStr := match p.port with
    | .integer n => integerToList n
    | .text s => s
  acc ++ " @".toList ++ p.ip ++ ":".toList ++ portStr ++ ":".toList ++ p.name.toList ++
    ":".toList ++ integerToList p.amount

/-- The line of a job: the fold of `build_job_request` and a newline. -/
def jobRequestLine (jobId : ℤ) (petitions : List Petition) : List Char :=
  petitions.foldl (fun acc p => buildJobRequest p acc)
    ("JOB_REQUEST ".toList ++ integerToList jobId) ++ ['\n']

/-! ## The choice of the petitions -/

/-- The environment variable that `normalize_env` has checked. -/
inductive Env where
  | dev
  | test
deriving DecidableEq

/-- The numbers behind the calls of `rand:uniform`: for the number of nodes, for the key of
a node in `shuffle`, and for the amount of a resource of a selected node. -/
structure Draws where
  nodes : ℕ
  key : ℕ → ℕ
  amount : ℕ → ResourceName → ℕ

/-- `rand:uniform(max)`: a number from `1` to `max`. -/
def uniform (draw max : ℕ) : ℕ := draw % max + 1

/-- `shuffle`: `lists:keysort` is stable. -/
def shuffle (key : ℕ → ℕ) (nodes : List Node) : List Node :=
  ((nodes.mapIdx fun i node => (key i, node)).mergeSort fun p q => p.1 ≤ q.1).map Prod.snd

/-- `pick_random`. -/
def pickRandom (key : ℕ → ℕ) (n : ℕ) (nodes : List Node) : List Node :=
  (shuffle key nodes).take n

/-- `pick_resources`; `false` is `none`. -/
def pickResources (draw : ResourceName → ℕ) (node : Node) : Option (List Petition) :=
  let nodeResources := [(ResourceName.cpu, node.cpu), (.mem, node.mem), (.gpu, node.gpu)]
  let available := nodeResources.filterMap fun r =>
    match r.2 with
    | none => none
    | some n => if 0 < n then some (r.1, n) else none
  match available with
  | [] => none
  | selected => some (selected.map fun r =>
      ⟨node.ip, .text node.port, r.1, uniform (draw r.1) r.2.toNat⟩)

/-- The order of terms on ports: numbers come before lists. -/
def Port.lt : Port → Port → Bool
  | .integer m, .integer n => m < n
  | .integer _, .text _ => true
  | .text _, .integer _ => false
  | .text s, .text t => s < t

/-- `{Ip1, Port1, resource_order(Resource1)} =< {Ip2, Port2, resource_order(Resource2)}` -/
def Petition.le (p q : Petition) : Bool :=
  p.ip < q.ip || (p.ip == q.ip && (p.port.lt q.port ||
    (p.port == q.port && resourceOrder p.name ≤ resourceOrder q.name)))

/-- `generate_job_request`. -/
def generateJobRequest (draws : Draws) (jobId : ℤ) (nodes : List Node) (env : Env) :
    List Char × List Petition :=
  let n := uniform draws.nodes nodes.length
  let selectedNodes := pickRandom draws.key n nodes
  let availableResources :=
    (selectedNodes.mapIdx fun i node => (pickResources (draws.amount i) node).getD []).flatten
  let sortedResources := match env with
    | .dev => availableResources.mergeSort Petition.le
    | .test => availableResources
  (jobRequestLine jobId sortedResources, sortedResources)

/-! ## The text of the line -/

/-- The words that the fold adds. -/
def petitionText (p : Petition) : List Char := buildJobRequest p []

theorem buildJobRequest_eq (p : Petition) (acc : List Char) :
    buildJobRequest p acc = acc ++ petitionText p := by
  simp [petitionText, buildJobRequest]

theorem jobRequestLine_eq (jobId : ℤ) (petitions : List Petition) :
    jobRequestLine jobId petitions =
      "JOB_REQUEST ".toList ++ integerToList jobId ++ petitions.flatMap petitionText ++ ['\n'] := by
  have hfold : ∀ (ps : List Petition) (acc : List Char),
      ps.foldl (fun acc p => buildJobRequest p acc) acc = acc ++ ps.flatMap petitionText := by
    intro ps
    induction ps with
    | nil => simp
    | cons p ps ih =>
      intro acc
      rw [List.foldl_cons, ih, buildJobRequest_eq, List.flatMap_cons, List.append_assoc]
  rw [jobRequestLine, hfold]

theorem integerToList_natCast (n : ℕ) : integerToList n = Nat.toDigits 10 n := by
  rw [integerToList, if_neg (by omega), Int.natAbs_natCast]

end ResourceManager.Scheduler
