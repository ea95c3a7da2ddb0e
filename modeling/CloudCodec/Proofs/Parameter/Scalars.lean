/-
# Scalars that may be unset

The scalars of a record can be listed without regard to its arguments: each with its path on the
wire, and with its text or, where it is unset, without one (`Scalars`).  Paths in a record whose
fields have distinct names without dots are distinct, set or not (`tidy_object`), and so are the
names of the parameters that are made of them.  An argument that writes exactly the scalars that
are set is therefore encoded, and in its parameters every scalar is found under its own name if it
is set, and nothing is found there if it is not (`IsSentAs`).
-/
import CloudCodec.Proofs.Parameter.Paths

namespace CloudCodec.Parameter

/-- Scalars, each with the names of fields and the numbers of items that lead to it, and with its
text on the wire unless it is unset. -/
abbrev Scalars := List (List String × Option String)

/-- The name of the parameter at a path. -/
def key (path : List String) : String := ".".intercalate path

namespace Scalars

/-- A text by itself. -/
def text (text? : Option String) : Scalars := [([], text?)]

/-- A number by itself. -/
def number (number? : Option UInt32) : Scalars :=
  [([], number?.map fun n => Numeral.naturalText n.toNat)]

/-- A boolean by itself. -/
def boolean (boolean? : Option Bool) : Scalars :=
  [([], boolean?.map fun b => if b then "true" else "false")]

/-- Scalars that one more step leads to. -/
def below (step : String) (scalars : Scalars) : Scalars :=
  scalars.map fun s => (step :: s.1, s.2)

/-- The scalars of fields. -/
def object (fields : List (String × Scalars)) : Scalars :=
  fields.flatMap fun field => below field.1 field.2

/-- The scalars of items. -/
def list (numbering : Numbering) (items : List Scalars) : Scalars :=
  object (items.zipIdx.map fun item =>
    (Numeral.naturalText (numbering.index item.2), item.1))

/-- The scalars that are set, each with its path and text. -/
def present (scalars : Scalars) : List (List String × String) :=
  scalars.filterMap fun s => s.2.map fun text => (s.1, text)

/-- The parameters of the scalars that are set. -/
def pairs (scalars : Scalars) : List (String × String) :=
  scalars.present.map fun p => (key p.1, p.2)

/-- The scalars are what a set of parameters says: no two have the same name, each one is found
under its name if it is set and is not found if it is unset, and nothing else is found. -/
structure IsSentAs (scalars : Scalars) (set : ParameterSet) : Prop where
  nodup : (scalars.map fun s => key s.1).Nodup
  get?_key : ∀ {path : List String} {text? : Option String}, (path, text?) ∈ scalars →
    set.get? (key path) = text?
  exists_path : ∀ {name text : String}, set.get? name = some text →
    ∃ path, (path, some text) ∈ scalars ∧ key path = name

/-! ### The scalars that are set -/

variable {step : String} {scalars a b : Scalars} {path : List String} {text : String}

lemma mem_present_iff : (path, text) ∈ scalars.present ↔ (path, some text) ∈ scalars := by
  simp [present]

lemma present_append (a b : Scalars) : present (a ++ b) = a.present ++ b.present :=
  List.filterMap_append

lemma present_below (step : String) (scalars : Scalars) :
    (below step scalars).present = scalars.present.map fun p => (step :: p.1, p.2) := by
  rw [present, below, present, List.filterMap_map, List.map_filterMap]
  congr 1
  funext s
  rcases s with ⟨path, _ | text⟩ <;> rfl

lemma object_cons (field : String × Scalars) (fields : List (String × Scalars)) :
    object (field :: fields) = below field.1 field.2 ++ object fields := rfl

/-! ### Distinct paths -/

/-- The paths are distinct, and no step holds a dot. -/
structure Tidy (scalars : Scalars) : Prop where
  nodup : (scalars.map Prod.fst).Nodup
  dots : ∀ s ∈ scalars, ∀ step ∈ s.1, '.' ∉ step.toList

lemma tidy_singleton (text? : Option String) : Tidy [([], text?)] := by
  constructor <;> simp

@[simp] lemma tidy_text (text? : Option String) : Tidy (.text text?) := tidy_singleton _

@[simp] lemma tidy_number (number? : Option UInt32) : Tidy (.number number?) := tidy_singleton _

@[simp] lemma tidy_boolean (boolean? : Option Bool) : Tidy (.boolean boolean?) := tidy_singleton _

/-- Fields with distinct names without dots have distinct paths. -/
theorem tidy_object {fields : List (String × Scalars)} (hnodup : (fields.map Prod.fst).Nodup)
    (hdots : ∀ name ∈ fields.map Prod.fst, '.' ∉ name.toList)
    (h : ∀ scalars ∈ fields.map Prod.snd, Tidy scalars) : Tidy (object fields) := by
  have hpaths : ∀ field : String × Scalars,
      (below field.1 field.2).map Prod.fst = (field.2.map Prod.fst).map (field.1 :: ·) := by
    intro field
    simp [below]
  constructor
  · rw [object, List.map_flatMap, List.nodup_flatMap]
    constructor
    · intro field hfield
      rw [hpaths]
      exact (h field.2 (List.mem_map_of_mem hfield)).nodup.map
        fun _ _ heq => (List.cons.inj heq).2
    · have hnames : fields.Pairwise fun x y => x.1 ≠ y.1 := List.pairwise_map.1 hnodup
      refine hnames.imp ?_
      intro x y hne
      simp only [Function.onFun, hpaths, List.disjoint_left, List.mem_map]
      rintro _ ⟨path, -, rfl⟩ ⟨path', -, heq⟩
      exact hne (List.cons.inj heq).1.symm
  · intro s hs step hstep
    obtain ⟨field, hfield, hs⟩ := List.mem_flatMap.1 hs
    obtain ⟨s', hs', rfl⟩ := List.mem_map.1 hs
    rcases List.mem_cons.1 hstep with rfl | hstep
    · exact hdots field.1 (List.mem_map_of_mem hfield)
    · exact (h field.2 (List.mem_map_of_mem hfield)).dots s' hs' step hstep

lemma nodup_numbers (numbering : Numbering) (items : List Scalars) :
    ((items.zipIdx.map fun item =>
      (Numeral.naturalText (numbering.index item.2), item.1)).map Prod.fst).Nodup := by
  have hpositions : (items.zipIdx.map Prod.snd).Nodup := by
    rw [List.zipIdx_map_snd]
    exact List.nodup_range'
  have hmap := hpositions.map (naturalText_injective.comp (index_injective numbering))
  rw [List.map_map] at hmap ⊢
  exact hmap

/-- Items have distinct paths, for they have distinct numbers. -/
lemma tidy_list (numbering : Numbering) {items : List Scalars} (h : ∀ item ∈ items, Tidy item) :
    Tidy (list numbering items) := by
  refine tidy_object (nodup_numbers numbering items) ?_ ?_
  · intro name hname
    obtain ⟨field, hfield, rfl⟩ := List.mem_map.1 hname
    obtain ⟨item, -, rfl⟩ := List.mem_map.1 hfield
    exact dot_notMem_naturalText _
  · intro scalars hscalars
    obtain ⟨field, hfield, rfl⟩ := List.mem_map.1 hscalars
    obtain ⟨item, hitem, rfl⟩ := List.mem_map.1 hfield
    exact h item.1 (List.fst_mem_of_mem_zipIdx hitem)

@[simp] lemma tidy_texts (numbering : Numbering) (ss : List String) :
    Tidy (list numbering (ss.map fun s => .text (some s))) := by
  refine tidy_list numbering fun item hitem => ?_
  obtain ⟨s, -, rfl⟩ := List.mem_map.1 hitem
  exact tidy_text (some s)

/-! ### Names of parameters -/

lemma key_texts (steps : List Step) : key (steps.map Step.text) = nameBehind none steps := by
  cases steps with
  | nil => rfl
  | cons step steps => rfl

/-- Paths without dots are told by the names of their parameters. -/
lemma key_injOn {path path' : List String} (hne : path ≠ []) (hne' : path' ≠ [])
    (hdots : ∀ step ∈ path, '.' ∉ step.toList) (hdots' : ∀ step ∈ path', '.' ∉ step.toList)
    (h : key path = key path') : path = path' := by
  have htexts : ∀ p : List String, (p.map Step.field).map Step.text = p := by
    intro p
    rw [List.map_map]
    exact List.map_id p
  have hnames : nameBehind none (path.map Step.field) = nameBehind none (path'.map Step.field) := by
    rw [← key_texts, ← key_texts, htexts, htexts, h]
  have heq := nameBehind_injOn (by simpa [Step.text] using hdots)
    (by simpa [Step.text] using hdots') (by simpa using hne) (by simpa using hne') hnames
  rwa [htexts, htexts] at heq

lemma ne_nil_of_mem_object {fields : List (String × Scalars)} {s : List String × Option String}
    (h : s ∈ object fields) : s.1 ≠ [] := by
  obtain ⟨field, -, hs⟩ := List.mem_flatMap.1 h
  obtain ⟨s', -, rfl⟩ := List.mem_map.1 hs
  simp

/-- Tidy fields have distinct names of parameters, set or not. -/
lemma Tidy.nodup_keys {fields : List (String × Scalars)} (h : Tidy (object fields)) :
    ((object fields).map fun s => key s.1).Nodup := by
  have hpaths : (object fields).Pairwise fun x y => x.1 ≠ y.1 := List.pairwise_map.1 h.nodup
  refine List.pairwise_map.2 (hpaths.imp_of_mem ?_)
  intro x y hx hy hne heq
  exact hne (key_injOn (ne_nil_of_mem_object hx) (ne_nil_of_mem_object hy) (h.dots x hx)
    (h.dots y hy) heq)

lemma nodup_pairs (h : (scalars.map fun s => key s.1).Nodup) :
    (scalars.pairs.map Prod.fst).Nodup := by
  have hsublist : (scalars.pairs.map Prod.fst).Sublist (scalars.map fun s => key s.1) := by
    induction scalars with
    | nil => exact List.Sublist.slnil
    | cons s rest ih =>
      obtain ⟨path, text?⟩ := s
      have hrest := ih (List.nodup_cons.1 h).2
      cases text? with
      | none => exact hrest.cons _
      | some text => exact hrest.cons_cons _
  exact h.sublist hsublist

lemma mem_pairs_iff {name : String} :
    (name, text) ∈ scalars.pairs ↔ ∃ path, (path, some text) ∈ scalars ∧ key path = name := by
  rw [pairs, List.mem_map]
  constructor
  · rintro ⟨⟨path, text'⟩, hmem, heq⟩
    obtain ⟨rfl, rfl⟩ := Prod.mk.inj heq
    exact ⟨path, mem_present_iff.1 hmem, rfl⟩
  · rintro ⟨path, hmem, rfl⟩
    exact ⟨(path, text), mem_present_iff.2 hmem, rfl⟩

/-- A set that holds the parameters of the scalars that are set, and no others, says all of
them. -/
theorem isSentAs_of_get? {set : ParameterSet} (hnodup : (scalars.map fun s => key s.1).Nodup)
    (hget : ∀ name text, set.get? name = some text ↔ (name, text) ∈ scalars.pairs) :
    scalars.IsSentAs set := by
  refine ⟨hnodup, ?_, fun h => mem_pairs_iff.1 ((hget _ _).1 h)⟩
  intro path text? hmem
  cases text? with
  | some text => exact (hget _ _).2 (mem_pairs_iff.2 ⟨path, hmem, rfl⟩)
  | none =>
    -- what is found under this name would belong to another scalar of the same name
    rw [Option.eq_none_iff_forall_ne_some]
    intro text htext
    obtain ⟨path', hmem', hkey⟩ := mem_pairs_iff.1 ((hget _ _).1 htext)
    have hsame := List.inj_on_of_nodup_map hnodup hmem' hmem hkey
    cases (Prod.mk.inj hsame).2

lemma present_object (fields : List (String × Scalars)) :
    (object fields).present
      = fields.flatMap fun field => field.2.present.map fun p => (field.1 :: p.1, p.2) := by
  induction fields with
  | nil => rfl
  | cons field fields ih =>
    rw [object_cons, present_append, present_below, ih, List.flatMap_cons]

@[simp] lemma present_object_nil : (object []).present = [] := rfl

@[simp] lemma present_object_cons (name : String) (scalars : Scalars)
    (fields : List (String × Scalars)) :
    (object ((name, scalars) :: fields)).present
      = (below name scalars).present ++ (object fields).present := by
  rw [object_cons, present_append]

end Scalars

/-! ### Arguments that write the scalars that are set -/

open Scalars

lemma Argument.paths_object (fields : Fields) :
    (Argument.object fields).paths
      = fields.flatMap fun field => field.2.paths.map fun p => (field.1 :: p.1, p.2) := by
  rw [paths, leaves, fieldLeaves_eq_flatMap, List.map_flatMap]
  refine List.flatMap_congr fun field _ => ?_
  rw [paths, List.map_map, List.map_map]
  rfl

lemma Argument.paths_list (numbering : Numbering) (items : List Argument) :
    (Argument.list numbering items).paths
      = items.zipIdx.flatMap fun item => item.1.paths.map fun p =>
          (Numeral.naturalText (numbering.index item.2) :: p.1, p.2) := by
  rw [paths, leaves, itemLeaves_eq_flatMap, List.map_flatMap]
  refine List.flatMap_congr fun item _ => ?_
  rw [paths, List.map_map, List.map_map]
  rfl

/-- Items that write scalars are a list that does. -/
lemma Argument.paths_list_map {α : Type} (numbering : Numbering) (items : List α)
    {f : α → Argument} {g : α → Scalars} (h : ∀ x, (f x).paths = (g x).present) :
    (Argument.list numbering (items.map f)).paths
      = (Scalars.list numbering (items.map g)).present := by
  rw [paths_list, Scalars.list, present_object, List.zipIdx_map, List.zipIdx_map, List.flatMap_map,
    List.flatMap_map, List.flatMap_map]
  refine List.flatMap_congr fun item _ => ?_
  simp only [Prod.map_fst, Prod.map_snd, h, id_eq]

namespace Fields

/-- The scalars of fields, each with its path and text. -/
def paths (fields : Fields) : List (List String × String) := (Argument.object fields).paths

@[simp] lemma paths_nil : paths [] = [] := rfl

@[simp] lemma paths_append (a b : Fields) : paths (a ++ b) = a.paths ++ b.paths := by
  rw [paths, paths, paths, Argument.paths_object, Argument.paths_object, Argument.paths_object,
    List.flatMap_append]

lemma paths_singleton (name : String) (field : Argument) :
    paths [(name, field)] = field.paths.map fun p => (name :: p.1, p.2) := by
  rw [paths, Argument.paths_object, List.flatMap_singleton]

@[simp] lemma paths_value (name : String) (v : Value) : paths (value name v) = [([name], v.wire)] :=
  rfl

@[simp] lemma paths_text? (name : String) (s? : Option String) :
    paths (text? name s?) = (below name (.text s?)).present := by
  cases s? <;> rfl

@[simp] lemma paths_number? (name : String) (n? : Option UInt32) :
    paths (number? name n?) = (below name (.number n?)).present := by
  cases n? <;> rfl

@[simp] lemma paths_boolean? (name : String) (b? : Option Bool) :
    paths (boolean? name b?) = (below name (.boolean b?)).present := by
  rcases b? with _ | _ | _ <;> rfl

lemma paths_object_some (name : String) (fields : Fields) :
    paths (object name (some fields)) = fields.paths.map fun p => (name :: p.1, p.2) := by
  cases fields with
  | nil => rfl
  | cons field fields => exact paths_singleton name _

/-- A list of items that write scalars, where no items write none. -/
lemma paths_list_map {α : Type} (name : String) (numbering : Numbering) (items : List α)
    {f : α → Argument} {g : α → Scalars} (h : ∀ x, (f x).paths = (g x).present) :
    paths (list name numbering (items.map f))
      = (below name (.list numbering (items.map g))).present := by
  have hpaths := Argument.paths_list_map numbering items h
  rw [present_below, ← hpaths, ← paths_singleton]
  cases items with
  | nil => rfl
  | cons item items => rfl

@[simp] lemma paths_texts (name : String) (numbering : Numbering) (ss : List String) :
    paths (texts name numbering ss)
      = (below name (.list numbering (ss.map fun s => .text (some s)))).present :=
  paths_list_map name numbering ss fun _ => rfl

end Fields

/-- The parameters of fields are their scalars under the names of their paths. -/
lemma Fields.named_none (fields : Fields) :
    fields.named none = fields.paths.map fun p => (key p.1, p.2) := by
  rw [named_scope_eq, Fields.paths, Argument.paths, List.map_map]
  refine List.map_congr_left fun leaf _ => ?_
  simp only [Function.comp_apply, key_texts]

/-- The parameters of an argument at a root are its scalars under the names of their paths. -/
lemma Argument.named_eq (root : String) (argument : Argument) :
    argument.named root = argument.paths.map fun p => (key (root :: p.1), p.2) := by
  rw [named, paths, List.map_map]
  rfl

end CloudCodec.Parameter
