import ClasspathAdvice.Graph.DominatorMemo
import Mathlib.Logic.Relation

/-!
# A memo that calls share

Calls for dominator trees share one memo, and each takes its own steps: it looks its key up,
computes the tree if there is none, and publishes it. A step is not interrupted, but between two
steps of a call there may be steps of others, and new calls on any graph.
-/

namespace ClasspathAdvice
set_option autoImplicit false

/-- How far a call has come. -/
inductive CallStage where
  | asked
  | missed
  | computed (tree : DominatorTree)
  | answered (answer : Except GraphError DominatorTree)

namespace CallStage

/-- Whether the memo was asked. -/
def isLookedUp : CallStage → Bool
  | asked => false
  | _ => true

/-- Whether the memo had no tree and the call has not ended. -/
def isComputing : CallStage → Bool
  | missed | computed _ => true
  | asked | answered _ => false

/-- How many steps are left to the answer, at most. -/
def stepsLeft : CallStage → Nat
  | asked => 3
  | missed => 2
  | computed _ => 1
  | answered _ => 0

end CallStage

/-- A call for the dominator tree of a graph from a root. -/
structure Call where
  graph : Graph
  root : String
  stage : CallStage := .asked

namespace Call

variable {φ : Type}

/-- The key of a call. -/
def key (fingerprint : Graph → φ) (c : Call) : DominatorKey φ :=
  { fingerprint := fingerprint c.graph, root := c.root }

/-- What a call is about, however far it has come. -/
def request (c : Call) : Graph × String := (c.graph, c.root)

variable [DecidableEq φ]

/-- The next step of a call, and the memo after it. -/
def step (fingerprint : Graph → φ) (m : FingerprintMemo φ) (c : Call) : Call × FingerprintMemo φ :=
  match c.stage with
  | .asked =>
    match m.lookup (c.key fingerprint) with
    | (some tree, m) => ({ c with stage := .answered (.ok tree) }, m)
    | (none, m) => ({ c with stage := .missed }, m)
  | .missed =>
    match DominatorTree.ofRoot c.graph c.root with
    | .ok tree => ({ c with stage := .computed tree }, m)
    | .error e => ({ c with stage := .answered (.error e) }, m)
  | .computed tree =>
    let (kept, m) := m.publish (c.key fingerprint) tree
    ({ c with stage := .answered (.ok kept) }, m)
  | .answered _ => (c, m)

end Call

/-- A memo and all calls that were made on it. -/
structure SharedMemo (φ : Type) where
  memo : FingerprintMemo φ
  calls : List Call

namespace SharedMemo

variable {φ : Type} [DecidableEq φ]

/-- The memo before the first call. -/
def initial : SharedMemo φ := { memo := ∅, calls := [] }

/-- What happens next: a new call, or the next step of one. -/
inductive Step (fingerprint : Graph → φ) : SharedMemo φ → SharedMemo φ → Prop
  | ask (s : SharedMemo φ) (graph : Graph) (root : String) :
    Step fingerprint s { s with calls := s.calls ++ [{ graph, root }] }
  | advance (m : FingerprintMemo φ) (before : List Call) (c : Call) (after : List Call) :
    Step fingerprint { memo := m, calls := before ++ c :: after }
      { memo := (c.step fingerprint m).2, calls := before ++ (c.step fingerprint m).1 :: after }

/-- What comes after a state, in any order of steps. -/
def Leads (fingerprint : Graph → φ) : SharedMemo φ → SharedMemo φ → Prop :=
  Relation.ReflTransGen (Step fingerprint)

/-- The states that the calls can come to. -/
def IsReachable (fingerprint : Graph → φ) (s : SharedMemo φ) : Prop := Leads fingerprint initial s

end SharedMemo

end ClasspathAdvice
