/-
# Elements in scope

A receiver meets the elements of a forest except those inside an element that it claims: these are
in scope.  Of the elements in scope it takes in the claimed ones and the leaves, each of them as a
whole, and passes through the others, so a forest may be replaced by its frontier.  Two forests that
differ in one element in scope have frontiers that differ in that element (`Swapped`).
-/
import CloudCodec.Xml.Element
import Mathlib.Tactic.Lemma

namespace CloudCodec.Xml

variable {claims : String → Bool}

mutual

/-- An element and, unless it is claimed, the elements in scope inside it, in document order. -/
def Element.scope (claims : String → Bool) : Element → List Element
  | ⟨name, attributes, children, text⟩ =>
    ⟨name, attributes, children, text⟩ :: if claims name then [] else scopeAll claims children

/-- The elements in scope in a forest, in document order. -/
def scopeAll (claims : String → Bool) : List Element → List Element
  | [] => []
  | e :: rest => e.scope claims ++ scopeAll claims rest

end

/-- The leaves in scope that are not claimed. -/
def leaves (claims : String → Bool) (forest : List Element) : List Element :=
  (scopeAll claims forest).filter fun e => !claims e.name && e.isLeaf

/-- The claimed elements in scope. -/
def claimed (claims : String → Bool) (forest : List Element) : List Element :=
  (scopeAll claims forest).filter fun e => claims e.name

/-- The elements whose name is one of some names. -/
def named (names : List String) (es : List Element) : List Element :=
  es.filter fun e => names.contains e.name

/-! ### The frontier -/

/-- The elements in scope that are taken in as a whole: the claimed ones and the leaves. -/
def frontier (claims : String → Bool) (forest : List Element) : List Element :=
  (scopeAll claims forest).filter fun e => claims e.name || e.isLeaf

lemma frontier_append (a b : List Element) :
    frontier claims (a ++ b) = frontier claims a ++ frontier claims b := by
  have hscope : scopeAll claims (a ++ b) = scopeAll claims a ++ scopeAll claims b := by
    induction a with
    | nil => rfl
    | cons e rest ih => simp [scopeAll, ih]
  rw [frontier, hscope, List.filter_append, frontier, frontier]

lemma frontier_cons (e : Element) (rest : List Element) :
    frontier claims (e :: rest) = frontier claims [e] ++ frontier claims rest := by
  rw [← List.singleton_append, frontier_append]

lemma frontier_singleton_of_whole {e : Element} (h : (claims e.name || e.isLeaf) = true) :
    frontier claims [e] = [e] := by
  rcases e with ⟨name, attributes, children, text⟩
  have hin : (if claims name then [] else scopeAll claims children) = [] := by
    rcases Bool.or_eq_true_iff.1 h with hclaims | hleaf
    · simp_all
    · simp [show children = [] by simpa [Element.isLeaf] using hleaf, scopeAll]
  simp only [frontier, scopeAll, Element.scope, hin, List.append_nil]
  rw [List.filter_cons_of_pos (by exact h), List.filter_nil]

lemma frontier_singleton_of_not_whole {e : Element} (h : (claims e.name || e.isLeaf) = false) :
    frontier claims [e] = frontier claims e.children := by
  rcases e with ⟨name, attributes, children, text⟩
  obtain ⟨hclaims, -⟩ := Bool.or_eq_false_iff.1 h
  simp only [frontier, scopeAll, Element.scope, hclaims, List.append_nil, Bool.false_eq_true,
    if_false]
  rw [List.filter_cons_of_neg (by rw [h]; exact Bool.false_ne_true)]

lemma whole_of_mem_frontier {forest : List Element} {e : Element} (h : e ∈ frontier claims forest) :
    (claims e.name || e.isLeaf) = true :=
  (List.mem_filter.1 h).2

lemma filter_frontier_leaves (forest : List Element) :
    ((frontier claims forest).filter fun e => !claims e.name) = leaves claims forest := by
  rw [frontier, List.filter_filter, leaves]
  congr 1
  funext e
  cases claims e.name <;> simp

lemma filter_frontier_claimed (forest : List Element) :
    ((frontier claims forest).filter fun e => claims e.name) = claimed claims forest := by
  rw [frontier, List.filter_filter, claimed]
  congr 1
  funext e
  cases claims e.name <;> simp

/-! ### One element in scope -/

/-- Two forests differ in one element in scope, `x` in the one and `x'` in the other, and `behind`
stands behind it. -/
inductive Swapped (claims : String → Bool) (x x' : Element) :
    List Element → List Element → List Element → Prop
  | here (after : List Element) : Swapped claims x x' (x :: after) (x' :: after) after
  | inside {name : String} {attributes : Attributes} {text : String}
      {a b behind : List Element} (after : List Element) : claims name = false →
      Swapped claims x x' a b behind →
      Swapped claims x x' (⟨name, attributes, a, text⟩ :: after)
        (⟨name, attributes, b, text⟩ :: after) (behind ++ after)
  | beside (e : Element) {a b behind : List Element} : Swapped claims x x' a b behind →
      Swapped claims x x' (e :: a) (e :: b) behind

namespace Swapped

variable {x x' : Element} {a b behind : List Element}

lemma ne_nil (h : Swapped claims x x' a b behind) : a ≠ [] ∧ b ≠ [] := by
  cases h <;> simp

/-- The frontiers differ in that element. -/
lemma exists_frontier (h : Swapped claims x x' a b behind) (hx : claims x.name = true)
    (hx' : claims x'.name = true) :
    ∃ front, frontier claims a = front ++ x :: frontier claims behind ∧
      frontier claims b = front ++ x' :: frontier claims behind := by
  induction h with
  | here after =>
    refine ⟨[], ?_, ?_⟩
    · rw [frontier_cons, frontier_singleton_of_whole (by simp [hx])]
      rfl
    · rw [frontier_cons, frontier_singleton_of_whole (by simp [hx'])]
      rfl
  | @inside name attributes text a b behind after hname hin ih =>
    obtain ⟨front, ha, hb⟩ := ih
    have hpassed : ∀ forest : List Element, forest ≠ [] →
        frontier claims (⟨name, attributes, forest, text⟩ :: after)
          = frontier claims forest ++ frontier claims after := by
      intro forest hne
      rw [frontier_cons, frontier_singleton_of_not_whole (by simp [hname, Element.isLeaf, hne])]
    refine ⟨front, ?_, ?_⟩
    · rw [hpassed a hin.ne_nil.1, ha, frontier_append]
      simp
    · rw [hpassed b hin.ne_nil.2, hb, frontier_append]
      simp
  | @beside e a b behind _ ih =>
    obtain ⟨front, ha, hb⟩ := ih
    refine ⟨frontier claims [e] ++ front, ?_, ?_⟩
    · rw [frontier_cons, ha, List.append_assoc]
    · rw [frontier_cons, hb, List.append_assoc]

/-- The leaves in scope are the same, and the claimed elements differ in that element. -/
lemma exists_claimed (h : Swapped claims x x' a b behind) (hx : claims x.name = true)
    (hx' : claims x'.name = true) :
    leaves claims a = leaves claims b ∧
      ∃ front, claimed claims a = front ++ x :: claimed claims behind ∧
        claimed claims b = front ++ x' :: claimed claims behind := by
  obtain ⟨front, ha, hb⟩ := h.exists_frontier hx hx'
  constructor
  · rw [← filter_frontier_leaves, ← filter_frontier_leaves, ha, hb]
    simp [hx, hx']
  · refine ⟨front.filter fun e => claims e.name, ?_, ?_⟩
    · rw [← filter_frontier_claimed, ha, ← filter_frontier_claimed]
      simp [hx]
    · rw [← filter_frontier_claimed, hb, ← filter_frontier_claimed]
      simp [hx']

end Swapped

/-! ### Names -/

lemma named_concat_of_mem {names : List String} {e : Element} (es : List Element)
    (h : e.name ∈ names) : named names (es ++ [e]) = named names es ++ [e] := by
  rw [named, List.filter_append, List.filter_cons_of_pos (by rwa [List.contains_iff_mem]),
    List.filter_nil, named]

lemma named_concat_of_notMem {names : List String} {e : Element} (es : List Element)
    (h : e.name ∉ names) : named names (es ++ [e]) = named names es := by
  rw [named, List.filter_append, List.filter_cons_of_neg (by rwa [List.contains_iff_mem]),
    List.filter_nil, List.append_nil, named]

/-! ### Sizes -/

mutual

/-- An element in scope of another one is not larger. -/
theorem sizeOf_of_mem_scope {e f : Element} (h : f ∈ e.scope claims) : sizeOf f ≤ sizeOf e := by
  rcases e with ⟨name, attributes, children, text⟩
  rw [Element.scope] at h
  rcases List.mem_cons.1 h with rfl | h
  · exact Nat.le_refl _
  · cases hclaims : claims name with
    | true => simp [hclaims] at h
    | false =>
      rw [hclaims] at h
      have hlt : sizeOf f < sizeOf children := sizeOf_of_mem_scopeAll h
      simp only [Element.mk.sizeOf_spec]
      omega

/-- An element in scope of a forest is smaller than the forest. -/
theorem sizeOf_of_mem_scopeAll {forest : List Element} {f : Element}
    (h : f ∈ scopeAll claims forest) : sizeOf f < sizeOf forest := by
  cases forest with
  | nil => simp [scopeAll] at h
  | cons e rest =>
    rw [scopeAll] at h
    simp only [List.cons.sizeOf_spec]
    rcases List.mem_append.1 h with h | h
    · have hle := sizeOf_of_mem_scope h
      omega
    · have hlt := sizeOf_of_mem_scopeAll h
      omega

end

/-- What an element in scope of a forest holds is smaller than the forest. -/
lemma sizeOf_children_of_mem_scopeAll {forest : List Element} {e : Element}
    (h : e ∈ scopeAll claims forest) : sizeOf e.children < sizeOf forest := by
  have hlt := sizeOf_of_mem_scopeAll h
  rcases e with ⟨name, attributes, children, text⟩
  simp only [Element.mk.sizeOf_spec] at hlt ⊢
  omega

end CloudCodec.Xml
