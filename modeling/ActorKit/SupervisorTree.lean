import ActorKit.Supervisor

/-!
# Supervisor trees

The model of `SupervisorTree` in `supervisor.rs`. The two recursions of the
source follow the child lists without a bound; here they carry the depth they
may still descend and give `none` below it.
-/

namespace ActorKit.supervisor

/-- Hierarchical supervisor tree structure. -/
structure SupervisorTree where
  root : ActorId
  supervisors : Dict ActorId Supervisor
  supervisor_children : Dict ActorId (List ActorId)

namespace SupervisorTree

/-- Create a new supervisor tree with a root supervisor. -/
def new (root_id : ActorId) (root_strategy : SupervisionStrategy) : SupervisorTree where
  root := root_id
  supervisors := AList.insert root_id (Supervisor.new root_id root_strategy) ∅
  supervisor_children := AList.insert root_id [] ∅

/-- Add a new supervisor with the id `id` under a parent. -/
def add_supervisor (t : SupervisorTree) (parent : ActorId) (strategy : SupervisionStrategy) (id : ActorId) :
    SupervisorTree × Except Error ActorId :=
  if (t.supervisors.lookup parent).isNone then (t,.error (SupervisorError.SupervisorNotFound parent).into)
  else
    ({ t with
        supervisors := t.supervisors.insert id (Supervisor.with_parent id strategy parent)
        supervisor_children := Dict.modify parent (· ++ [id]) (t.supervisor_children.insert id []) },.ok id)

/-- Start a child actor under a specific supervisor. -/
def start_child_under (t : SupervisorTree) (supervisor : ActorId) (spec : ChildSpec) (id : ActorId) :
    SupervisorTree × Except Error ActorId :=
  match t.supervisors.lookup supervisor with
  | none => (t,.error (SupervisorError.SupervisorNotFound supervisor).into)
  | some sup =>
    ({ t with supervisors := t.supervisors.modify supervisor (fun s => (s.start_child spec id).1) },
      (sup.start_child spec id).2)

/-- The ids of a subtree in preorder, appended to `result`. -/
def collect_subtree_recursive (t : SupervisorTree) : Nat → ActorId → List ActorId → Option (List ActorId)
  | 0,_,_ => none
  | depth + 1,id,result =>
    match t.supervisor_children.lookup id with
    | some children =>
      children.foldlM (fun result child => t.collect_subtree_recursive depth child result) (result ++ [id])
    | none => some (result ++ [id])

def collect_subtree (t : SupervisorTree) (root_id : ActorId) : Option (List ActorId) :=
  t.collect_subtree_recursive (t.supervisor_children.keys.length + 1) root_id []

/-- The body of the first loop of `terminate_tree`. -/
def shutdown_children (supervisors : Dict ActorId Supervisor) (id : ActorId) : Dict ActorId Supervisor :=
  match supervisors.lookup id with
  | some supervisor =>
    let child_names := supervisor.which_children.map (·.spec.name)
    child_names.foldl (fun supervisors name =>
      supervisors.modify id (fun sup => (sup.terminate_child name .Shutdown).1)) supervisors
  | none => supervisors

/-- The body of the second loop of `terminate_tree`. -/
def remove_supervisor (t : SupervisorTree) (id : ActorId) : SupervisorTree :=
  if id ≠ t.root then
    { t with
      supervisors := t.supervisors.erase id
      supervisor_children :=
        Dict.mapValues (fun _ children => children.filter (· ≠ id)) (t.supervisor_children.erase id) }
  else t

/-- Terminate a subtree starting from a given supervisor. -/
def terminate_tree (t : SupervisorTree) (root_id : ActorId) : Option (SupervisorTree × Except Error Unit) :=
  if (t.supervisors.lookup root_id).isNone then
    some (t,.error (SupervisorError.SupervisorNotFound root_id).into)
  else do
    let to_terminate ← t.collect_subtree root_id
    let t := { t with supervisors := to_terminate.reverse.foldl shutdown_children t.supervisors }
    some (to_terminate.foldl remove_supervisor t,.ok ())

/-- Handle a child exit in the appropriate supervisor. -/
def handle_child_exit (t : SupervisorTree) (supervisor_id : ActorId) (child_name : String) (reason : ExitReason)
    (now : Readings) (mint : String → ActorId) : SupervisorTree × Except Error Unit :=
  match t.supervisors.lookup supervisor_id with
  | none => (t,.error (SupervisorError.SupervisorNotFound supervisor_id).into)
  | some supervisor =>
    ({ t with supervisors :=
        t.supervisors.modify supervisor_id (fun s => (s.handle_child_exit child_name reason now mint).1) },
      (supervisor.handle_child_exit child_name reason now mint).2)

def calculate_depth (t : SupervisorTree) : Nat → ActorId → Nat → Option Nat
  | 0,_,_ => none
  | depth + 1,id,current_depth =>
    match t.supervisor_children.lookup id with
    | some children => do
      let child_depths ← children.mapM (fun child => t.calculate_depth depth child (current_depth + 1))
      some (child_depths.max?.getD current_depth)
    | none => some current_depth

/-- Get the depth of the tree. -/
def tree_depth (t : SupervisorTree) : Option Nat :=
  t.calculate_depth (t.supervisor_children.keys.length + 1) t.root 0

end SupervisorTree

/-! ## Runs -/

/-- The public operations of a tree. An id that an operation mints is its last
    argument; `get_supervisor_mut` reaches every operation of one supervisor. -/
inductive TreeOp where
  | add_supervisor (parent : ActorId) (strategy : SupervisionStrategy) (id : ActorId)
  | start_child_under (supervisor : ActorId) (spec : ChildSpec) (id : ActorId)
  | terminate_tree (root_id : ActorId)
  | handle_child_exit (supervisor_id : ActorId) (child_name : String) (reason : ExitReason) (now : Readings)
      (mint : String → ActorId)
  | get_supervisor_mut (id : ActorId) (op : Op)

/-- The tree after one operation; `none` when the operation does not return. -/
def SupervisorTree.apply (t : SupervisorTree) : TreeOp → Option SupervisorTree
  | .add_supervisor parent strategy id => some (t.add_supervisor parent strategy id).1
  | .start_child_under supervisor spec id => some (t.start_child_under supervisor spec id).1
  | .terminate_tree root_id => (t.terminate_tree root_id).map (·.1)
  | .handle_child_exit supervisor_id child_name reason now mint =>
    some (t.handle_child_exit supervisor_id child_name reason now mint).1
  | .get_supervisor_mut id op => some { t with supervisors := t.supervisors.modify id (·.apply op) }

/-- The tree after a run. -/
def SupervisorTree.run (t : SupervisorTree) (ops : List TreeOp) : Option SupervisorTree :=
  ops.foldlM SupervisorTree.apply t

/-- The id an operation mints for a supervisor. -/
def TreeOp.minted : TreeOp → Option ActorId
  | .add_supervisor _ _ id => some id
  | _ => none

end ActorKit.supervisor
