/-
# Histories of a set

A set of parameters is put together by three kinds of calls: a parameter is inserted, another set
is merged, or a list is encoded into it.  Each of them has parameters to bring along, which a list
has only if it can be encoded, and then looks for a name that the set has already before it moves
any of them (`Call.run_eq`).  So a call that fails leaves the set as it was, a call that succeeds
adds what it brings along, and nothing is ever changed or lost (`get?_after_iff`, by induction on
the calls).

Which calls succeed depends on the names in the set alone, and sets that are put together from parts
without a common name do not depend on the order of the parts (`run_perm`).
-/
import CloudCodec.Parameter.ItemList
import CloudCodec.Proofs.Text.Utf8
import CloudCodec.Proofs.TextMap

namespace CloudCodec

open Parameter (Error)

namespace ParameterSet

variable {set set' new : ParameterSet} {name text : String}

/-! ### Acts on a set in place -/

/-- Adds a parameter whose name is new to the set at hand. -/
def addInPlace (name value : String) : EStateM Error ParameterSet Unit := do
  if (← get).contains name then
    throw (.duplicateName name)
  modify fun set => set.insert name value

/-- Moves the parameters of another set, all of whose names are new, to the set at hand, one after
the other. -/
def mergeInPlace (other : ParameterSet) : EStateM Error ParameterSet Unit := do
  match other.names.find? (← get).contains with
  | some name => throw (.duplicateName name)
  | none => other.entries.forM fun p => modify fun set => set.insert p.1 p.2

/-- A set that was put in the place of another one, which stays where there is none. -/
def inPlaceOf (set : ParameterSet) :
    Except Error ParameterSet → EStateM.Result Error ParameterSet Unit
  | .ok set' => .ok () set'
  | .error e => .error e set

lemma addInPlace_eq (name value : String) (set : ParameterSet) :
    addInPlace name value set = inPlaceOf set (set.add name value) := by
  cases hcontains : set.contains name <;>
    simp [addInPlace, add, hcontains, inPlaceOf, bind, EStateM.bind, get, getThe, MonadStateOf.get,
      EStateM.get, throw, throwThe, MonadExceptOf.throw, EStateM.throw, modify, modifyGet,
      MonadStateOf.modifyGet, EStateM.modifyGet]

lemma forM_insert (pairs : List (String × String)) (set : ParameterSet) :
    (pairs.forM fun p => modify fun set => set.insert p.1 p.2 : EStateM Error ParameterSet Unit) set
      = .ok () (set.insertMany pairs) := by
  induction pairs generalizing set with
  | nil => rfl
  | cons p pairs ih => exact ih (set.insert p.1 p.2)

lemma mergeInPlace_eq (other set : ParameterSet) :
    mergeInPlace other set = inPlaceOf set (set.merge other) := by
  have hget : mergeInPlace other set
      = (match other.names.find? set.contains with
        | some name => throw (.duplicateName name)
        | none => other.entries.forM fun p => modify fun set => set.insert p.1 p.2 :
          EStateM Error ParameterSet Unit) set := rfl
  rw [hget, merge]
  cases other.names.find? set.contains with
  | some name => rfl
  | none => exact forM_insert other.entries set

/-! ### Parameters that are added -/

/-- A set has exactly its own parameters and those of another one, which has no name in common with
it. -/
structure Adds (set new set' : ParameterSet) : Prop where
  apart : ∀ name, new.contains name = true → set.contains name = false
  get?_iff : ∀ name text, set'.get? name = some text ↔
    set.get? name = some text ∨ new.get? name = some text

/-- The first name of a set, in the order of bytes, that another one has already. -/
structure FirstClash (set new : ParameterSet) (name : String) : Prop where
  isNew : new.contains name = true
  isPresent : set.contains name = true
  isFirst : ∀ other, new.contains other = true → set.contains other = true →
    other = name ∨ Utf8.encode name < Utf8.encode other

/-- Names are looked through in order, so the first clash is found. -/
lemma firstClash_of_find? (h : new.names.find? set.contains = some name) :
    FirstClash set new name := by
  obtain ⟨hpresent, before, after, hnames, hbefore⟩ := List.find?_eq_some_iff_append.1 h
  have hsorted : new.names.Pairwise (· < ·) := List.pairwise_map.2 new.sorted
  refine ⟨TextMap.mem_names_iff.1 (by simp [hnames]), hpresent, ?_⟩
  intro other hnew hold
  have hmem := TextMap.mem_names_iff.2 hnew
  rw [hnames, List.mem_append, List.mem_cons] at hmem
  rcases hmem with hmem | rfl | hmem
  · -- a name in front of the clash is not in the set
    simpa [hold] using hbefore other hmem
  · exact .inl rfl
  · rw [hnames, List.pairwise_append, List.pairwise_cons] at hsorted
    exact .inr (Utf8.encode_lt_encode (hsorted.2.1.1 other hmem))

lemma find?_eq_none_iff :
    new.names.find? set.contains = none ↔
      ∀ name, new.contains name = true → set.contains name = false := by
  simp only [List.find?_eq_none, TextMap.mem_names_iff, Bool.not_eq_true]

/-- A set with all the parameters of another one has those of both. -/
lemma adds_insertMany (h : ∀ name, new.contains name = true → set.contains name = false) :
    Adds set new (set.insertMany new.entries) := by
  refine ⟨h, fun name text => ?_⟩
  by_cases hname : name ∈ new.names
  · obtain ⟨text', hnew⟩ := TextMap.contains_iff.1 (TextMap.mem_names_iff.1 hname)
    have hset := TextMap.contains_eq_false_iff.1 (h name (TextMap.mem_names_iff.1 hname))
    rw [TextMap.get?_insertMany_of_mem new.sorted.nodup_names (TextMap.mem_entries_iff.2 hnew),
      hset, hnew]
    simp
  · have hnew : new.get? name = none := by
      rw [TextMap.mem_names_iff, Bool.not_eq_true] at hname
      exact TextMap.contains_eq_false_iff.1 hname
    rw [TextMap.get?_insertMany_of_notMem hname, hnew]
    simp

lemma Adds.unique {set'' : ParameterSet} (h : Adds set new set') (h' : Adds set new set'') :
    set' = set'' :=
  TextMap.ext_get? fun name text => by rw [h.get?_iff, h'.get?_iff]

lemma Adds.contains_iff (h : Adds set new set') :
    set'.contains name = true ↔ set.contains name = true ∨ new.contains name = true := by
  simp only [TextMap.contains_iff, h.get?_iff, exists_or]

/-- Parameters that are added after others may be added before them. -/
lemma Adds.swap {mid last new' : ParameterSet} (h : Adds set new mid)
    (h' : Adds mid new' last) : ∃ mid', Adds set new' mid' ∧ Adds mid' new last := by
  -- what is added last has no name in common with the set or with what was added first
  have hmid : ∀ name, new'.contains name = true →
      set.contains name = false ∧ new.contains name = false := by
    intro name hname
    have hapart := h'.apart name hname
    rwa [Bool.eq_false_iff, ne_eq, h.contains_iff, not_or, ← ne_eq, ← ne_eq, ← Bool.eq_false_iff,
      ← Bool.eq_false_iff] at hapart
  have hfirst := adds_insertMany fun name hname => (hmid name hname).1
  refine ⟨_, hfirst, ?_, ?_⟩
  · intro name hname
    rw [Bool.eq_false_iff, ne_eq, hfirst.contains_iff, not_or]
    refine ⟨Bool.eq_false_iff.1 (h.apart name hname), fun hname' => ?_⟩
    rw [(hmid name hname').2] at hname
    cases hname
  · intro name text
    rw [h'.get?_iff, h.get?_iff, hfirst.get?_iff, or_right_comm]

end ParameterSet

namespace Parameter

open ParameterSet (mergeInPlace inPlaceOf Adds FirstClash)

/-- Encodes a list into the set at hand. -/
def ItemList.encodeInPlace (list : ItemList) (scope : Option String) (items : List Argument) :
    EStateM Error ParameterSet Unit :=
  match list.encode scope items with
  | .error e => throw e
  | .ok encoded => mergeInPlace encoded

lemma ItemList.encodeInPlace_eq (list : ItemList) (scope : Option String) (items : List Argument)
    (set : ParameterSet) :
    list.encodeInPlace scope items set = inPlaceOf set (list.encodeInto set scope items) := by
  rw [encodeInPlace, encodeInto]
  cases list.encode scope items with
  | error e => rfl
  | ok encoded => exact ParameterSet.mergeInPlace_eq encoded set

/-! ### Calls -/

/-- A call on a set. -/
inductive Call
  /-- A parameter is inserted. -/
  | insert (name value : String)
  /-- Another set is merged. -/
  | merge (other : ParameterSet)
  /-- A list is encoded into the set. -/
  | encodeInto (list : ItemList) (scope : Option String) (items : List Argument)

namespace Call

/-- What a call does to the set at hand. -/
def run : Call → EStateM Error ParameterSet Unit
  | .insert name value => ParameterSet.addInPlace name value
  | .merge other => mergeInPlace other
  | .encodeInto list scope items => list.encodeInPlace scope items

/-- The set that a call makes of another one. -/
def result (set : ParameterSet) : Call → Except Error ParameterSet
  | .insert name value => set.add name value
  | .merge other => set.merge other
  | .encodeInto list scope items => list.encodeInto set scope items

/-- The parameters that a call brings along. -/
def incoming : Call → Except Error ParameterSet
  | .insert name value => .ok (TextMap.insert ∅ name value)
  | .merge other => .ok other
  | .encodeInto list scope items => list.encode scope items

/-- A call that acts in place leaves the set that it makes, or the one that was there. -/
theorem run_eq_result (call : Call) (set : ParameterSet) :
    call.run set = inPlaceOf set (call.result set) := by
  cases call with
  | insert name value => exact ParameterSet.addInPlace_eq name value set
  | merge other => exact ParameterSet.mergeInPlace_eq other set
  | encodeInto list scope items => exact list.encodeInPlace_eq scope items set

/-- Whatever the call, what it brings along is merged. -/
lemma result_eq_merge (call : Call) (set : ParameterSet) :
    call.result set = call.incoming.bind fun new => set.merge new := by
  cases call with
  | insert name value =>
    cases hcontains : set.contains name <;>
      simp [result, incoming, ParameterSet.add, ParameterSet.merge, hcontains, Except.bind,
        TextMap.insert, TextMap.put, TextMap.names, TextMap.insertMany,
        EmptyCollection.emptyCollection, TextMap.empty]
  | merge other => rfl
  | encodeInto list scope items =>
    rw [result, incoming, ItemList.encodeInto]
    cases list.encode scope items <;> rfl

variable {call : Call} {set set' new : ParameterSet}

lemma run_of_incoming_error {e : Error} (h : call.incoming = .error e) (set : ParameterSet) :
    call.run set = .error e set := by
  rw [run_eq_result, result_eq_merge, h]
  rfl

/-- A call that brings parameters along either finds a clash and leaves the set as it was, or adds
them all. -/
theorem run_of_incoming (h : call.incoming = .ok new) (set : ParameterSet) :
    (∃ name, FirstClash set new name ∧ call.run set = .error (.duplicateName name) set) ∨
      ∃ set', Adds set new set' ∧ call.run set = .ok () set' := by
  rw [run_eq_result, result_eq_merge, h]
  simp only [Except.bind, ParameterSet.merge]
  cases hfind : new.names.find? set.contains with
  | some name => exact .inl ⟨name, ParameterSet.firstClash_of_find? hfind, rfl⟩
  | none =>
    exact .inr ⟨_, ParameterSet.adds_insertMany (ParameterSet.find?_eq_none_iff.1 hfind), rfl⟩

/-- A call succeeds exactly if it can add what it brings along. -/
theorem run_eq_ok_iff :
    call.run set = .ok () set' ↔ ∃ new, call.incoming = .ok new ∧ Adds set new set' := by
  cases hincoming : call.incoming with
  | error e => simp [run_of_incoming_error hincoming]
  | ok new =>
    simp only [Except.ok.injEq, exists_eq_left']
    rcases run_of_incoming hincoming set with ⟨name, hclash, hrun⟩ | ⟨set'', hadds, hrun⟩
    · -- a clash stands in the way of any set that has both
      refine iff_of_false (by simp [hrun]) fun hadds => ?_
      have hapart := hadds.apart name hclash.isNew
      rw [hclash.isPresent] at hapart
      cases hapart
    · rw [hrun]
      constructor
      · rintro ⟨⟩
        exact hadds
      · intro hadds'
        rw [hadds.unique hadds']

end Call

/-! ### Calls one after the other -/

/-- The set that a call leaves, whether it succeeds or fails. -/
def Call.left (call : Call) (set : ParameterSet) : ParameterSet :=
  match call.run set with
  | .ok _ set' => set'
  | .error _ set' => set'

/-- The set behind some calls, whether they succeed or fail. -/
def after (calls : List Call) (set : ParameterSet) : ParameterSet :=
  calls.foldl (fun set call => call.left set) set

variable {call : Call} {calls calls' : List Call} {set set' : ParameterSet} {name text : String}

/-- Behind a call the parameters are those from before and, if it succeeded, those that it brought
along. -/
lemma get?_left_iff :
    (call.left set).get? name = some text ↔ set.get? name = some text ∨
      ∃ new mid, call.incoming = .ok new ∧ call.run set = .ok () mid ∧
        new.get? name = some text := by
  cases hincoming : call.incoming with
  | error e => simp [Call.left, Call.run_of_incoming_error hincoming]
  | ok new =>
    rcases Call.run_of_incoming hincoming set with ⟨first, -, hrun⟩ | ⟨mid, hadds, hrun⟩
    · simp [Call.left, hrun]
    · simp [Call.left, hrun, hadds.get?_iff]

/-- A parameter is in the set behind some calls exactly if it was in the set before them, or a call
that succeeded among them brought it along. -/
theorem get?_after_iff :
    (after calls set).get? name = some text ↔ set.get? name = some text ∨
      ∃ before call rest new mid, calls = before ++ call :: rest ∧ call.incoming = .ok new ∧
        call.run (after before set) = .ok () mid ∧ new.get? name = some text := by
  induction calls generalizing set with
  | nil => simp [after]
  | cons call calls ih =>
    change (after calls (call.left set)).get? name = some text ↔ _
    rw [ih, get?_left_iff]
    constructor
    · rintro ((h | ⟨new, mid, hincoming, hrun, hnew⟩) |
        ⟨before, later, rest, new, mid, rfl, hincoming, hrun, hnew⟩)
      · exact .inl h
      · exact .inr ⟨[], call, calls, new, mid, rfl, hincoming, hrun, hnew⟩
      · exact .inr ⟨call :: before, later, rest, new, mid, rfl, hincoming, hrun, hnew⟩
    · rintro (h | ⟨before, later, rest, new, mid, heq, hincoming, hrun, hnew⟩)
      · exact .inl (.inl h)
      · -- the call that brought it along is the first one or a later one
        cases before with
        | nil =>
          obtain ⟨rfl, rfl⟩ := List.cons.inj heq
          exact .inl (.inr ⟨new, mid, hincoming, hrun, hnew⟩)
        | cons first before =>
          obtain ⟨rfl, rfl⟩ := List.cons.inj heq
          exact .inr ⟨before, later, rest, new, mid, rfl, hincoming, hrun, hnew⟩

lemma forM_run_cons :
    (call :: calls).forM Call.run set = .ok () set' ↔
      ∃ mid, call.run set = .ok () mid ∧ calls.forM Call.run mid = .ok () set' := by
  simp only [List.forM_eq_forM, List.forM_cons, bind, EStateM.bind]
  cases call.run set <;> simp

/-- Two calls that succeed one after the other succeed the other way round. -/
lemma run_swap {call' : Call} {mid : ParameterSet} (h : call.run set = .ok () mid)
    (h' : call'.run mid = .ok () set') :
    ∃ mid', call'.run set = .ok () mid' ∧ call.run mid' = .ok () set' := by
  obtain ⟨new, hincoming, hadds⟩ := Call.run_eq_ok_iff.1 h
  obtain ⟨new', hincoming', hadds'⟩ := Call.run_eq_ok_iff.1 h'
  obtain ⟨mid', hfirst, hsecond⟩ := hadds.swap hadds'
  exact ⟨mid', Call.run_eq_ok_iff.2 ⟨new', hincoming', hfirst⟩,
    Call.run_eq_ok_iff.2 ⟨new, hincoming, hsecond⟩⟩

/-- Calls that all succeed succeed in every order, and make the same set. -/
theorem run_perm (hperm : calls.Perm calls') (h : calls.forM Call.run set = .ok () set') :
    calls'.forM Call.run set = .ok () set' := by
  induction hperm generalizing set with
  | nil => exact h
  | cons call _ ih =>
    obtain ⟨mid, hcall, hrest⟩ := forM_run_cons.1 h
    exact forM_run_cons.2 ⟨mid, hcall, ih hrest⟩
  | swap first second rest =>
    obtain ⟨mid, hsecond, h⟩ := forM_run_cons.1 h
    obtain ⟨mid', hfirst, hrest⟩ := forM_run_cons.1 h
    -- a permutation is made of swaps of neighbours
    obtain ⟨mid'', hfirst', hsecond'⟩ := run_swap hsecond hfirst
    exact forM_run_cons.2 ⟨mid'', hfirst', forM_run_cons.2 ⟨mid', hsecond', hrest⟩⟩
  | trans _ _ ih ih' => exact ih' (ih h)

/-- A call on a set either fails and leaves the set as it was, or adds exactly the parameters that
it brings along.  If these can be encoded, it fails exactly if one of their names is there already,
and names the first such name.  So behind any calls the set has its own parameters and those of the
calls that succeeded, and calls that all succeed may be made in any order. -/
theorem calls_accumulate (set : ParameterSet) :
    (∀ call : Call, call.run set = inPlaceOf set (call.result set)) ∧
    (∀ call : Call, (∃ e, call.run set = .error e set) ∨
      ∃ new set', call.incoming = .ok new ∧ call.run set = .ok () set' ∧ Adds set new set') ∧
    (∀ (call : Call) e, call.incoming = .error e → call.run set = .error e set) ∧
    (∀ (call : Call) new, call.incoming = .ok new →
      ((∃ e set', call.run set = .error e set') ↔
        ∃ name, new.contains name = true ∧ set.contains name = true) ∧
      ∀ e set', call.run set = .error e set' →
        set' = set ∧ ∃ name, e = .duplicateName name ∧ FirstClash set new name) ∧
    (∀ calls name text, (after calls set).get? name = some text ↔ set.get? name = some text ∨
      ∃ before call rest new mid, calls = before ++ call :: rest ∧ call.incoming = .ok new ∧
        call.run (after before set) = .ok () mid ∧ new.get? name = some text) ∧
    ∀ (calls : List Call) (set' : ParameterSet), calls.forM Call.run set = .ok () set' →
      ∀ calls' : List Call, calls.Perm calls' → calls'.forM Call.run set = .ok () set' := by
  refine ⟨fun call => call.run_eq_result set, ?_, ?_, ?_, ?_, ?_⟩
  · intro call
    cases hincoming : call.incoming with
    | error e => exact .inl ⟨e, Call.run_of_incoming_error hincoming set⟩
    | ok new =>
      rcases Call.run_of_incoming hincoming set with ⟨name, -, hrun⟩ | ⟨set', hadds, hrun⟩
      · exact .inl ⟨_, hrun⟩
      · exact .inr ⟨new, set', rfl, hrun, hadds⟩
  · intro call e hincoming
    exact Call.run_of_incoming_error hincoming set
  · intro call new hincoming
    rcases Call.run_of_incoming hincoming set with ⟨name, hclash, hrun⟩ | ⟨set', hadds, hrun⟩
    · rw [hrun]
      refine ⟨iff_of_true ⟨_, _, rfl⟩ ⟨name, hclash.isNew, hclash.isPresent⟩, ?_⟩
      rintro e set' ⟨⟩
      exact ⟨rfl, name, rfl, hclash⟩
    · rw [hrun]
      refine ⟨iff_of_false (by simp) ?_, by simp⟩
      rintro ⟨name, hnew, hpresent⟩
      rw [hadds.apart name hnew] at hpresent
      cases hpresent
  · intro calls name text
    exact get?_after_iff
  · intro calls set' h calls' hperm
    exact run_perm hperm h

/-- A call of each kind. -/
def sampleCalls : List Call :=
  [.encodeInto ⟨"L", .fromOne, []⟩ (some "P") [.scalar (.text "x")],
    .merge (.ofList [("A", "1"), ("B", "2")]), .insert "C" "3"]

/-- A call of each kind, in order and in reverse order, and a set that clashes twice with what is
there then. -/
theorem calls_accumulate_sample :
    sampleCalls.forM Call.run (.ofList [("Z", "0")])
        = .ok () (.ofList [("A", "1"), ("B", "2"), ("C", "3"), ("P.L.1", "x"), ("Z", "0")]) ∧
      sampleCalls.reverse.forM Call.run (.ofList [("Z", "0")])
        = .ok () (.ofList [("A", "1"), ("B", "2"), ("C", "3"), ("P.L.1", "x"), ("Z", "0")]) ∧
      Call.run (.merge (.ofList [("D", "4"), ("P.L.1", "y"), ("Z", "5")]))
          (.ofList [("A", "1"), ("B", "2"), ("C", "3"), ("P.L.1", "x"), ("Z", "0")])
        = .error (.duplicateName "P.L.1")
          (.ofList [("A", "1"), ("B", "2"), ("C", "3"), ("P.L.1", "x"), ("Z", "0")]) := by
  have hcalls : sampleCalls.forM Call.run (.ofList [("Z", "0")])
      = .ok () (.ofList [("A", "1"), ("B", "2"), ("C", "3"), ("P.L.1", "x"), ("Z", "0")]) := by
    cbv
  obtain ⟨-, -, -, -, -, horder⟩ := calls_accumulate (.ofList [("Z", "0")])
  exact ⟨hcalls, horder _ _ hcalls _ (List.reverse_perm _).symm, by cbv⟩

end Parameter

end CloudCodec
