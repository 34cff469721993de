import ClasspathAdvice.Graph.Dominator

/-!
# Dominator trees kept for graphs of equal content

A memo keeps dominator trees by a fingerprint of their graphs and by the root, so graphs of
equal fingerprint share one. Asking for a tree takes three steps that may interleave with those
of others: `lookup`, computing the tree, and `publish`, which keeps a tree that is there already.
A `DominatorMemo` takes the whole content of a graph for its fingerprint.
-/

namespace ClasspathAdvice
set_option autoImplicit false

/-- The fingerprint of a graph, and a root in it. -/
structure DominatorKey (φ : Type) where
  fingerprint : φ
  root : String
  deriving DecidableEq

/-- Dominator trees by key, with counts of the look-ups that found one and that did not. -/
structure FingerprintMemo (φ : Type) where
  entries : List (DominatorKey φ × DominatorTree)
  hits : Nat
  misses : Nat

namespace FingerprintMemo

variable {φ : Type}

/-- The memo without entries. -/
def empty : FingerprintMemo φ := { entries := [], hits := 0, misses := 0 }

instance : EmptyCollection (FingerprintMemo φ) := ⟨empty⟩
instance : Inhabited (FingerprintMemo φ) := ⟨empty⟩

/-- The number of entries. -/
def size (m : FingerprintMemo φ) : Nat := m.entries.length

/-- The counts in words. -/
def text (m : FingerprintMemo φ) : String :=
  toString m.size ++ " dominance trees cached (" ++ toString m.hits ++ " hits, " ++
    toString m.misses ++ " misses)"

variable [DecidableEq φ]

/-- The tree at a key. -/
def get? (m : FingerprintMemo φ) (key : DominatorKey φ) : Option DominatorTree :=
  m.entries.lookup key

/-- Looks a tree up and counts whether it is there. -/
def lookup (m : FingerprintMemo φ) (key : DominatorKey φ) :
    Option DominatorTree × FingerprintMemo φ :=
  match m.get? key with
  | some tree => (some tree, { m with hits := m.hits + 1 })
  | none => (none, { m with misses := m.misses + 1 })

/-- Keeps a tree unless there is one at its key, and answers with the one that is kept. -/
def publish (m : FingerprintMemo φ) (key : DominatorKey φ) (tree : DominatorTree) :
    DominatorTree × FingerprintMemo φ :=
  match m.get? key with
  | some kept => (kept, m)
  | none => (tree, { m with entries := m.entries ++ [(key, tree)] })

/-- The dominator tree of a graph from a root, computed if it is not there. Failures are not
kept. -/
def getOrComputeBy (fingerprint : Graph → φ) (m : FingerprintMemo φ) (g : Graph) (root : String) :
    Except GraphError DominatorTree × FingerprintMemo φ :=
  let key := { fingerprint := fingerprint g, root }
  match m.lookup key with
  | (some tree, m) => (.ok tree, m)
  | (none, m) =>
    match DominatorTree.ofRoot g root with
    | .ok tree =>
      let (tree, m) := m.publish key tree
      (.ok tree, m)
    | .error e => (.error e, m)

end FingerprintMemo

/-- The content of a graph: its nodes and edges in order. -/
def Graph.content (g : Graph) : List Coordinates × List (Nat × Nat) :=
  (g.nodes.toList, g.edges.toList)

/-- Dominator trees by the content of their graphs and by the root. -/
abbrev DominatorMemo := FingerprintMemo (List Coordinates × List (Nat × Nat))

/-- The dominator tree of a graph from a root, computed if it is not there. -/
def DominatorMemo.getOrCompute (m : DominatorMemo) (g : Graph) (root : String) :
    Except GraphError DominatorTree × DominatorMemo :=
  m.getOrComputeBy Graph.content g root

end ClasspathAdvice
