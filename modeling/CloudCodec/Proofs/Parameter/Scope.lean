/-
# Encoding behind a scope

A scope puts one text in front of every name (`lead`): itself, and a dot unless it ends in one
already.  A text in front of all names neither tells names apart that were the same nor makes the
same of names that differ, and it keeps their order.  So an encoding behind a scope is the encoding
without one with that text in front of every name (`encode_behind`), of the parameters as of the
name that a clash is told with; and rules are checked without a look at names of parameters.

A set is built up name by name, so the reason is that adding a parameter commutes with putting a
text in front of all names (`add_behind`); the names themselves are dotted from their root, and the
root is where the text goes (`named_append`).
-/
import CloudCodec.Proofs.Parameter.Paths

namespace CloudCodec

/-! ### A text in front of names -/

/-- A parameter with a text in front of its name. -/
def putBehind (front : String) (p : String × String) : String × String := (front ++ p.1, p.2)

lemma append_lt_append_iff {front a b : String} : front ++ a < front ++ b ↔ a < b := by
  rw [String.lt_iff_toList_lt, String.lt_iff_toList_lt, String.toList_append, String.toList_append]
  induction front.toList with
  | nil => rfl
  | cons c cs ih => simpa using ih

namespace TextMap

lemma Sorted.map_putBehind {pairs : List (String × String)} (h : Sorted pairs) (front : String) :
    Sorted (pairs.map (putBehind front)) := by
  refine List.pairwise_map.2 (h.imp ?_)
  intro p q hlt
  exact append_lt_append_iff.2 hlt

lemma put_putBehind (front name text : String) (pairs : List (String × String)) :
    put (front ++ name) text (pairs.map (putBehind front))
      = (put name text pairs).map (putBehind front) := by
  induction pairs with
  | nil => rfl
  | cons p rest ih =>
    rw [List.map_cons, putBehind, put, put]
    simp only [append_lt_append_iff]
    split_ifs
    · rfl
    · rw [ih]
      rfl
    · rfl

lemma lookup_putBehind (front name : String) (pairs : List (String × String)) :
    (pairs.map (putBehind front)).lookup (front ++ name) = pairs.lookup name := by
  induction pairs with
  | nil => rfl
  | cons p rest ih =>
    have hname : (front ++ name == front ++ p.1) = (name == p.1) :=
      decide_eq_decide.2 (String.append_right_inj front)
    rw [List.map_cons, putBehind, List.lookup_cons, List.lookup_cons, hname, ih]

/-- The map with a text in front of every name. -/
def behind (m : TextMap) (front : String) : TextMap :=
  ⟨m.entries.map (putBehind front), m.sorted.map_putBehind front⟩

variable (m : TextMap) (front name text : String)

@[simp] lemma behind_empty : (∅ : TextMap).behind front = ∅ := rfl

lemma insert_behind :
    (m.behind front).insert (front ++ name) text = (m.insert name text).behind front :=
  TextMap.ext (put_putBehind front name text m.entries)

lemma get?_behind : (m.behind front).get? (front ++ name) = m.get? name :=
  lookup_putBehind front name m.entries

lemma contains_behind : (m.behind front).contains (front ++ name) = m.contains name := by
  rw [contains, get?_behind, contains]

end TextMap

namespace Parameter

/-! ### Outcomes -/

/-- The error with a text in front of the name that it tells. -/
def Error.behind (front : String) : Error → Error
  | .invalid violation => .invalid violation
  | .duplicateName name => .duplicateName (front ++ name)

/-- The outcome with a text in front of every name. -/
def outcomeBehind (front : String) : Except Error ParameterSet → Except Error ParameterSet
  | .ok set => .ok (set.behind front)
  | .error e => .error (e.behind front)

/-- Adding a parameter commutes with putting a text in front of all names. -/
lemma add_behind (front : String) (set : ParameterSet) (name text : String) :
    ParameterSet.add (set.behind front) (front ++ name) text
      = outcomeBehind front (set.add name text) := by
  rw [ParameterSet.add, ParameterSet.add, TextMap.contains_behind, TextMap.insert_behind]
  split_ifs <;> rfl

lemma addAll_behind (front : String) (set : ParameterSet) (pairs : List (String × String)) :
    ParameterSet.addAll (set.behind front) (pairs.map (putBehind front))
      = outcomeBehind front (set.addAll pairs) := by
  induction pairs generalizing set with
  | nil => rfl
  | cons p rest ih =>
    obtain ⟨name, text⟩ := p
    rw [List.map_cons, putBehind, ParameterSet.addAll, ParameterSet.addAll, add_behind]
    cases set.add name text with
    | ok set => exact ih set
    | error e => rfl

/-! ### Names -/

/-- What a scope puts in front of every name. -/
def lead (s : String) : String := if s.toList.getLast? = some '.' then s else s ++ "."

lemma qualify_some {s : String} (hs : s ≠ "") (name : String) :
    qualify (some s) name = lead s ++ name := by
  rw [lead]
  split_ifs with hlast
  · exact qualify_of_dot hlast name
  · exact qualify_of_ne_dot hs hlast name

lemma lead_dot {s : String} (h : s.toList.getLast? ≠ some '.') : lead (s ++ ".") = lead s := by
  rw [lead, lead, if_pos (by simp), if_neg h]

lemma dotted_append (front root : String) (steps : List Step) :
    dotted (front ++ root) steps = front ++ dotted root steps := by
  induction steps generalizing root with
  | nil => rfl
  | cons step steps ih =>
    have hunder : under (front ++ root) step.text = front ++ under root step.text := by
      simp only [under, String.append_assoc]
    rw [dotted_cons, dotted_cons, hunder, ih]

/-- A text in front of the root is in front of all names. -/
lemma named_append (front root : String) (argument : Argument) :
    argument.named (front ++ root) = (argument.named root).map (putBehind front) := by
  rw [Argument.named, Argument.named, List.map_map]
  refine List.map_congr_left fun leaf _ => ?_
  rw [dotted_append]
  rfl

/-! ### Encodings -/

lemma encodeObject_of_qualify {scope : Option String} {front : String}
    (h : ∀ name, qualify scope name = front ++ name) (fields : Fields) :
    encodeObject scope fields = outcomeBehind front (encodeObject none fields) := by
  have hscalars : (fields.flatMap fun field => field.2.scalars (qualify scope field.1))
      = (fields.flatMap fun field => field.2.scalars (qualify none field.1)).map
          (putBehind front) := by
    rw [List.map_flatMap]
    refine List.flatMap_congr fun field _ => ?_
    rw [h, scalars_eq_named, scalars_eq_named, named_append]
    rfl
  rw [encodeObject, hscalars, ← TextMap.behind_empty front, addAll_behind]
  rfl

lemma encode_of_qualify {scope : Option String} {front : String}
    (h : ∀ name, qualify scope name = front ++ name) (list : ItemList) (items : List Argument) :
    list.encode scope items = outcomeBehind front (list.encode none items) := by
  have hscalars := named_append front (qualify none list.name) (.list list.numbering items)
  rw [← scalars_eq_named, ← scalars_eq_named, Argument.scalars, Argument.scalars] at hscalars
  rw [ItemList.encode, ItemList.encode, ItemList.validate]
  cases list.rules.findSome? fun rule => rule.violation? list.name items with
  | some violation => rfl
  | none =>
    have hroot : qualify scope list.name = front ++ qualify none list.name := h list.name
    simp only [hroot]
    rw [hscalars, ← TextMap.behind_empty front, addAll_behind]
    rfl

/-- Behind a scope an object and a list are encoded exactly if they are without one, into the same
parameters with one text in front of every name: the scope, and a dot unless it ends in one.  If
they are refused for a rule, they are for the same rule, and if for a name that is there already,
that name has the text in front as well.  So a dot at the end of a scope makes no difference, and
neither does an empty scope. -/
theorem encode_behind (s : String) (hs : s ≠ "") :
    (∀ fields : Fields,
      encodeObject (some s) fields = outcomeBehind (lead s) (encodeObject none fields)) ∧
    (∀ (list : ItemList) (items : List Argument),
      list.encode (some s) items = outcomeBehind (lead s) (list.encode none items)) ∧
    (s.toList.getLast? ≠ some '.' →
      (∀ fields : Fields, encodeObject (some (s ++ ".")) fields = encodeObject (some s) fields) ∧
      ∀ (list : ItemList) (items : List Argument),
        list.encode (some (s ++ ".")) items = list.encode (some s) items) ∧
    (∀ fields : Fields, encodeObject (some "") fields = encodeObject none fields) ∧
    ∀ (list : ItemList) (items : List Argument),
      list.encode (some "") items = list.encode none items := by
  have hdot : s ++ "." ≠ "" := by simp
  refine ⟨encodeObject_of_qualify (qualify_some hs), encode_of_qualify (qualify_some hs), ?_,
    fun fields => rfl, fun list items => rfl⟩
  intro hlast
  constructor
  · intro fields
    rw [encodeObject_of_qualify (qualify_some hdot), encodeObject_of_qualify (qualify_some hs),
      lead_dot hlast]
  · intro list items
    rw [encode_of_qualify (qualify_some hdot), encode_of_qualify (qualify_some hs),
      lead_dot hlast]

theorem encode_behind_sample :
    ("P" ≠ "" ∧ "P".toList.getLast? ≠ some '.') ∧
    encodeObject (some "P.") [("a", .object [("b", .scalar (.integer 1))]),
        ("a.b", .scalar (.boolean true))] = .error (.duplicateName "P.a.b") ∧
    ItemList.encode ⟨"L", .fromOne, [⟨"F", true, none, none⟩]⟩ (some "P") [.scalar (.text "x")]
      = .ok (.ofList [("P.L.1", "x")]) ∧
    ItemList.encode ⟨"L", .fromOne, [⟨"F", true, none, none⟩]⟩ (some "P")
        [.object [("F", .scalar (.boolean true))], .scalar (.text "x")]
      = .error (.invalid (.notAlone "L" "F" 2)) := by
  have hscope : "P" ≠ "" := by decide
  have hlast : "P".toList.getLast? ≠ some '.' := by decide
  obtain ⟨hobject, hlist, hdot, -⟩ := encode_behind "P" hscope
  refine ⟨⟨hscope, hlast⟩, ?_, ?_, ?_⟩
  · have hsame : "P." = "P" ++ "." := rfl
    rw [hsame, (hdot hlast).1, hobject]
    decide +kernel
  · rw [hlist]
    decide +kernel
  · rw [hlist]
    decide +kernel

end Parameter

end CloudCodec
