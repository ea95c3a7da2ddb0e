/-
# Looking up names

Binding a name changes what is found under that name and nothing else.  The order of the pairs
plays no part in this, so it holds of every list of pairs and is lifted to maps.
-/
import CloudCodec.TextMap
import Mathlib.Data.List.Nodup
import Mathlib.Tactic.Lemma
import Mathlib.Tactic.SplitIfs

namespace CloudCodec.TextMap

lemma lookup_put_self (name text : String) (pairs : List (String × String)) :
    (put name text pairs).lookup name = some text := by
  induction pairs with
  | nil => simp [put]
  | cons p rest ih =>
    obtain ⟨n, t⟩ := p
    rw [put]
    split_ifs with hlt hgt
    · simp
    · have hne : (name == n) = false := by
        simpa using fun h : name = n => String.lt_irrefl n (h ▸ hgt)
      rw [List.lookup_cons, hne]
      exact ih
    · simp

lemma lookup_put_of_ne {name n : String} (h : n ≠ name) (text : String)
    (pairs : List (String × String)) :
    (put name text pairs).lookup n = pairs.lookup n := by
  have hn : (n == name) = false := by simpa using h
  induction pairs with
  | nil => simp [put, List.lookup_cons, hn]
  | cons p rest ih =>
    obtain ⟨n', t⟩ := p
    rw [put]
    split_ifs with hlt hgt
    · rw [List.lookup_cons, hn]
    · rw [List.lookup_cons, List.lookup_cons, ih]
    · have heq : n' = name :=
        (String.le_antisymm (String.not_lt.1 hgt) (String.not_lt.1 hlt)).symm
      subst heq
      rw [List.lookup_cons, List.lookup_cons, hn]

@[simp] lemma get?_empty (n : String) : (∅ : TextMap).get? n = none := rfl

lemma get?_insert (m : TextMap) (name text n : String) :
    (m.insert name text).get? n = if n = name then some text else m.get? n := by
  split_ifs with h
  · rw [h]
    exact lookup_put_self name text m.entries
  · exact lookup_put_of_ne h text m.entries

lemma get?_insertMany_of_notMem {m : TextMap} {pairs : List (String × String)} {n : String}
    (h : n ∉ pairs.map Prod.fst) : (m.insertMany pairs).get? n = m.get? n := by
  induction pairs generalizing m with
  | nil => rfl
  | cons p pairs ih =>
    rw [List.map_cons, List.mem_cons, not_or] at h
    change ((m.insert p.1 p.2).insertMany pairs).get? n = m.get? n
    rw [ih h.2, get?_insert, if_neg h.1]

lemma get?_insertMany_of_mem {m : TextMap} {pairs : List (String × String)} {n t : String}
    (hnodup : (pairs.map Prod.fst).Nodup) (h : (n, t) ∈ pairs) :
    (m.insertMany pairs).get? n = some t := by
  induction pairs generalizing m with
  | nil => simp at h
  | cons p pairs ih =>
    rw [List.map_cons, List.nodup_cons] at hnodup
    change ((m.insert p.1 p.2).insertMany pairs).get? n = some t
    rcases List.mem_cons.1 h with rfl | h
    · rw [get?_insertMany_of_notMem hnodup.1, get?_insert, if_pos rfl]
    · exact ih hnodup.2 h

lemma contains_iff {m : TextMap} {n : String} : m.contains n = true ↔ ∃ t, m.get? n = some t := by
  rw [contains, Option.isSome_iff_exists]

lemma contains_eq_false_iff {m : TextMap} {n : String} :
    m.contains n = false ↔ m.get? n = none := by
  rw [contains, Option.isSome_eq_false_iff, Option.isNone_iff_eq_none]

/-! ### The pairs of a map -/

/-- What is found under a name where no name is bound twice. -/
lemma lookup_eq_some_iff {α : Type} {pairs : List (String × α)} {name : String} {a : α}
    (h : (pairs.map Prod.fst).Nodup) : pairs.lookup name = some a ↔ (name, a) ∈ pairs := by
  rw [List.lookup_eq_some_iff]
  constructor
  · rintro ⟨before, after, rfl, -⟩
    simp
  · intro hmem
    obtain ⟨before, after, rfl⟩ := List.append_of_mem hmem
    refine ⟨before, after, rfl, ?_⟩
    intro p hp
    rw [List.map_append, List.nodup_append] at h
    have hne := h.2.2 p.1 (List.mem_map_of_mem hp) name (by simp)
    simpa using hne.symm

lemma Sorted.nodup_names {pairs : List (String × String)} (h : Sorted pairs) :
    (pairs.map Prod.fst).Nodup := by
  refine List.pairwise_map.2 (h.imp ?_)
  intro p q hlt heq
  exact String.lt_irrefl q.1 (heq ▸ hlt)

/-- The pairs of a map are the names that are bound, each with its text. -/
lemma mem_entries_iff {m : TextMap} {n t : String} : (n, t) ∈ m.entries ↔ m.get? n = some t :=
  (lookup_eq_some_iff m.sorted.nodup_names).symm

lemma eq_empty_of_isEmpty {m : TextMap} (h : m.isEmpty = true) : m = ∅ :=
  TextMap.ext (List.isEmpty_iff.1 h)

lemma mem_names_iff {m : TextMap} {n : String} : n ∈ m.names ↔ m.contains n = true := by
  rw [contains_iff, names, List.mem_map]
  constructor
  · rintro ⟨⟨n, t⟩, hmem, rfl⟩
    exact ⟨t, mem_entries_iff.1 hmem⟩
  · rintro ⟨t, h⟩
    exact ⟨(n, t), mem_entries_iff.2 h, rfl⟩

/-- A map is what is found under its names. -/
lemma ext_get? {m m' : TextMap} (h : ∀ n t, m.get? n = some t ↔ m'.get? n = some t) : m = m' := by
  have hperm : m.entries.Perm m'.entries := by
    refine (List.perm_ext_iff_of_nodup m.sorted.nodup_names.of_map
      m'.sorted.nodup_names.of_map).2 ?_
    rintro ⟨n, t⟩
    rw [mem_entries_iff, mem_entries_iff, h]
  refine TextMap.ext (hperm.eq_of_pairwise ?_ m.sorted m'.sorted)
  intro p q _ _ hpq hqp
  exact absurd (String.lt_trans hpq hqp) (String.lt_irrefl p.1)

/-! ### Bindings one after the other -/

lemma insertMany_cons (m : TextMap) (p : String × String) (pairs : List (String × String)) :
    m.insertMany (p :: pairs) = (m.insert p.1 p.2).insertMany pairs := rfl

/-- Of bindings one after the other the last one of a name counts, whatever was bound before. -/
lemma get?_insertMany (m : TextMap) (pairs : List (String × String)) (n : String) :
    (m.insertMany pairs).get? n = (((∅ : TextMap).insertMany pairs).get? n).or (m.get? n) := by
  induction pairs generalizing m with
  | nil => rfl
  | cons p pairs ih =>
    rw [insertMany_cons, insertMany_cons, ih, ih (TextMap.insert ∅ p.1 p.2), get?_insert,
      get?_insert, Option.or_assoc]
    split_ifs <;> rfl

/-- The same bindings once more change nothing. -/
lemma insertMany_insertMany_self (m : TextMap) (pairs : List (String × String)) :
    (m.insertMany pairs).insertMany pairs = m.insertMany pairs := by
  refine ext_get? fun n t => ?_
  rw [get?_insertMany (m.insertMany pairs), get?_insertMany m]
  cases ((∅ : TextMap).insertMany pairs).get? n <;> rfl

end CloudCodec.TextMap
