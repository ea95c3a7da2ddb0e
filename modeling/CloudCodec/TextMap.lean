/-
# Maps from names to texts

A map is the list of its pairs with the names strictly increasing by code point. Each map has
one such list, so two maps are equal when their pairs are, and walking a map is walking names
in order.
-/

namespace CloudCodec

/-- The pairs with `name` bound to `text`, in place of an earlier binding. -/
def TextMap.put (name text : String) : List (String × String) → List (String × String)
  | [] => [(name, text)]
  | (n, t) :: rest =>
    if name < n then (name, text) :: (n, t) :: rest
    else if n < name then (n, t) :: TextMap.put name text rest
    else (name, text) :: rest

/-- Pairs in strictly increasing order of their names. -/
def TextMap.Sorted (pairs : List (String × String)) : Prop :=
  pairs.Pairwise fun a b => a.1 < b.1

/-- The names after a binding are the bound name and those from before. -/
theorem TextMap.mem_put_names {name text : String} {pairs : List (String × String)}
    {p : String × String} (h : p ∈ TextMap.put name text pairs) : p.1 = name ∨ p ∈ pairs := by
  induction pairs with
  | nil => simp_all [TextMap.put]
  | cons q rest ih =>
    unfold TextMap.put at h
    split at h
    · rcases List.mem_cons.1 h with rfl | h
      · exact .inl rfl
      · exact .inr h
    · split at h
      · rcases List.mem_cons.1 h with rfl | h
        · exact .inr (List.mem_cons_self)
        · exact (ih h).imp id (List.mem_cons_of_mem _)
      · rcases List.mem_cons.1 h with rfl | h
        · exact .inl rfl
        · exact .inr (List.mem_cons_of_mem _ h)

/-- Binding a name keeps the order. -/
theorem TextMap.sorted_put (name text : String) {pairs : List (String × String)}
    (h : TextMap.Sorted pairs) : TextMap.Sorted (TextMap.put name text pairs) := by
  induction pairs with
  | nil => simp [TextMap.put, TextMap.Sorted]
  | cons q rest ih =>
    obtain ⟨hq, hrest⟩ := List.pairwise_cons.1 h
    unfold TextMap.put
    split
    · rename_i hlt
      refine List.pairwise_cons.2 ⟨?_, h⟩
      intro p hp
      rcases List.mem_cons.1 hp with rfl | hp
      · exact hlt
      · exact String.lt_trans hlt (hq p hp)
    · split
      · rename_i hlt
        refine List.pairwise_cons.2 ⟨?_, ih hrest⟩
        intro p hp
        rcases TextMap.mem_put_names hp with hp | hp
        · exact hp ▸ hlt
        · exact hq p hp
      · rename_i h₁ h₂
        have hname : name = q.1 := String.le_antisymm (String.not_lt.1 h₂) (String.not_lt.1 h₁)
        refine List.pairwise_cons.2 ⟨?_, hrest⟩
        intro p hp
        exact hname ▸ hq p hp

/-- A map from names to texts. -/
@[ext] structure TextMap where
  /-- The pairs in order of their names. -/
  entries : List (String × String)
  /-- The names increase strictly. -/
  sorted : TextMap.Sorted entries
  deriving DecidableEq

namespace TextMap

/-- The map without any pair. -/
def empty : TextMap := ⟨[], List.Pairwise.nil⟩

instance : EmptyCollection TextMap := ⟨empty⟩

instance : Inhabited TextMap := ⟨empty⟩

/-- The text bound to a name. -/
def get? (m : TextMap) (name : String) : Option String := m.entries.lookup name

/-- Whether a name is bound. -/
def contains (m : TextMap) (name : String) : Bool := (m.get? name).isSome

/-- The map with `name` bound to `text`, in place of an earlier binding. -/
def insert (m : TextMap) (name text : String) : TextMap :=
  ⟨put name text m.entries, sorted_put name text m.sorted⟩

/-- The number of names. -/
def size (m : TextMap) : Nat := m.entries.length

/-- Whether no name is bound. -/
def isEmpty (m : TextMap) : Bool := m.entries.isEmpty

/-- The names in order. -/
def names (m : TextMap) : List String := m.entries.map Prod.fst

/-- The map with every pair of `pairs` bound in turn. -/
def insertMany (m : TextMap) (pairs : List (String × String)) : TextMap :=
  pairs.foldl (fun m p => m.insert p.1 p.2) m

/-- The map of some pairs, of which the last wins for each name. -/
def ofList (pairs : List (String × String)) : TextMap := empty.insertMany pairs

end TextMap

end CloudCodec
