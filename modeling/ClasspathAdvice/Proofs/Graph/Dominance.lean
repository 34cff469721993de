import ClasspathAdvice.Proofs.Graph.Path

/-!
# Dominance

A node dominates another if every path from the root to the other passes it. Along an
edge only the node at its end is lost as a dominator (`Dominates.of_edge`).
-/

namespace ClasspathAdvice.Graph
set_option autoImplicit false

/-- Every path from the root to `n` passes `d`. -/
def Dominates (g : Graph) (root d n : Nat) : Prop := ∀ l, g.Path root n l → d ∈ l

variable {g : Graph} {root d n u : Nat}

theorem Dominates.refl : g.Dominates root n n := fun _ p => p.target_mem

theorem root_dominates : g.Dominates root root n := fun _ p => p.source_mem

/-- Only the root dominates the root. -/
theorem Dominates.eq_root (h : g.Dominates root d root) (lt : root < g.nodes.size) : d = root :=
  List.mem_singleton.1 (h _ (.start lt))

/-- What dominates a node, other than itself, dominates its predecessors. -/
theorem Dominates.of_edge (h : g.Dominates root d n) (ne : d ≠ n) (e : (u, n) ∈ g.edges) :
    g.Dominates root d u := by
  intro l p
  have := h _ (p.step e)
  simpa [ne] using this

/-- What dominates all predecessors of a node other than the root dominates the node. -/
theorem Dominates.of_predecessors (ne : n ≠ root)
    (h : ∀ u, (u, n) ∈ g.edges → g.Dominates root d u) : g.Dominates root d n := by
  rintro _ (_ | ⟨p, e⟩)
  · exact absurd rfl ne
  · exact List.mem_append_left _ (h _ e _ p)

/-- A node that does not dominate another is avoided by a path that repeats no node. -/
theorem exists_avoiding (h : ¬ g.Dominates root d n) :
    ∃ l, g.Path root n l ∧ d ∉ l ∧ l.length ≤ g.nodes.size := by
  simp only [Dominates, not_forall] at h
  obtain ⟨l, p, hd⟩ := h
  obtain ⟨l', p', nodup, sub⟩ := p.simple
  exact ⟨l', p', fun hl => hd (sub hl), length_le_size nodup fun _ hx => p'.mem_lt hx⟩

end ClasspathAdvice.Graph
