/-
# Interfaces told by their parameters

A scalar that is unset leaves no parameter, so what is set has to be told from what is not by the
names alone.  Scalars agree if the same paths are set to the same texts in both (`Agree`).  Objects
with the same fields agree field by field, lists of one length item by item (`Agree.fields`,
`Agree.items`), and in the end a text, a number or a boolean is the only thing that says what it
says.  A list of texts tells its length too, for a text is never unset; a list of records does not,
since a record may hold nothing that is set.

So two launches with equally many interfaces, and these with equally many private addresses, have
the same parameters only if they are the same (`eq_of_encodeAll`).
-/
import CloudCodec.Proofs.Request.Parameters

namespace CloudCodec

namespace Parameter

/-! ### Scalars that agree -/

namespace Scalars

/-- The same paths are set to the same texts. -/
def Agree (a b : Scalars) : Prop := ∀ p, p ∈ a.present ↔ p ∈ b.present

lemma eq_of_agree_text {a b : Option String} (h : Agree (.text a) (.text b)) : a = b := by
  have hset : ∀ c text, c = some text ↔ ([], text) ∈ (Scalars.text c).present := by
    intro c text
    simp [mem_present_iff, Scalars.text, eq_comm]
  refine Option.ext fun text => ?_
  rw [hset, hset]
  exact h ([], text)

lemma eq_of_agree_number {a b : Option UInt32} (h : Agree (.number a) (.number b)) : a = b := by
  have hinjective : Function.Injective fun n : UInt32 => Numeral.naturalText n.toNat :=
    fun m n hmn => UInt32.toNat_inj.1 (naturalText_injective hmn)
  exact Option.map_injective hinjective (eq_of_agree_text h)

lemma eq_of_agree_boolean {a b : Option Bool} (h : Agree (.boolean a) (.boolean b)) : a = b := by
  have hinjective : Function.Injective fun b : Bool => if b then "true" else "false" := by decide
  exact Option.map_injective hinjective (eq_of_agree_text h)

lemma mem_present_object_iff {fields : List (String × Scalars)}
    (hnodup : (fields.map Prod.fst).Nodup) {name : String} {scalars : Scalars}
    (h : (name, scalars) ∈ fields) {path : List String} {text : String} :
    (name :: path, text) ∈ (object fields).present ↔ (path, text) ∈ scalars.present := by
  rw [present_object, List.mem_flatMap]
  constructor
  · rintro ⟨⟨name', scalars'⟩, hmem, hpath⟩
    obtain ⟨⟨path', text'⟩, hpath', heq⟩ := List.mem_map.1 hpath
    obtain ⟨hcons, rfl⟩ := Prod.mk.inj heq
    obtain ⟨rfl, rfl⟩ := List.cons.inj hcons
    have hsame := List.inj_on_of_nodup_map hnodup hmem h rfl
    rw [← (Prod.mk.inj hsame).2]
    exact hpath'
  · intro hpath
    exact ⟨(name, scalars), h, List.mem_map.2 ⟨(path, text), hpath, rfl⟩⟩

/-- Objects with the same fields that agree do so field by field. -/
lemma Agree.fields {fields fields' : List (String × Scalars)}
    (h : Agree (object fields) (object fields'))
    (hnames : fields.map Prod.fst = fields'.map Prod.fst) (hnodup : (fields.map Prod.fst).Nodup) :
    List.Forall₂ Agree (fields.map Prod.snd) (fields'.map Prod.snd) := by
  have hlength : fields.length = fields'.length := by simpa using congrArg List.length hnames
  have hsame : List.Forall₂ (fun f f' => f.1 = f'.1) fields fields' := by
    rw [← List.forall₂_eq_eq_eq, List.forall₂_map_left_iff, List.forall₂_map_right_iff] at hnames
    exact hnames
  rw [List.forall₂_map_left_iff, List.forall₂_map_right_iff, List.forall₂_iff_zip]
  refine ⟨hlength, ?_⟩
  rintro ⟨name, scalars⟩ ⟨name', scalars'⟩ hzip ⟨path, text⟩
  obtain rfl : name = name' := List.forall₂_zip hsame hzip
  rw [← mem_present_object_iff hnodup (List.of_mem_zip hzip).1, h,
    mem_present_object_iff (hnames ▸ hnodup) (List.of_mem_zip hzip).2]

/-- Lists of one length that agree do so item by item. -/
lemma Agree.items {numbering : Numbering} {items items' : List Scalars}
    (hlength : items.length = items'.length)
    (h : Agree (list numbering items) (list numbering items')) :
    List.Forall₂ Agree items items' := by
  have hnumbers : ∀ xs : List Scalars, (xs.zipIdx.map fun item =>
      (Numeral.naturalText (numbering.index item.2), item.1)).map Prod.fst
        = (List.range' 0 xs.length).map fun i => Numeral.naturalText (numbering.index i) := by
    intro xs
    rw [← List.zipIdx_map_snd, List.map_map, List.map_map]
    rfl
  have hitems : ∀ xs : List Scalars, (xs.zipIdx.map fun item =>
      (Numeral.naturalText (numbering.index item.2), item.1)).map Prod.snd = xs := by
    intro xs
    rw [List.map_map]
    exact List.zipIdx_map_fst 0 xs
  have hfields := Agree.fields h (by rw [hnumbers, hnumbers, hlength])
    (nodup_numbers numbering items)
  rwa [hitems, hitems] at hfields

/-- Lists of texts that agree are the same, and so equally long. -/
lemma eq_of_agree_texts {numbering : Numbering} {ss ss' : List String}
    (h : Agree (list numbering (ss.map fun s => .text (some s)))
      (list numbering (ss'.map fun s => .text (some s)))) : ss = ss' := by
  have hset : ∀ (ts : List String) (i : Nat) (t : String), ts[i]? = some t ↔
      ([Numeral.naturalText (numbering.index i)], t)
        ∈ (list numbering (ts.map fun s => .text (some s))).present := by
    intro ts i t
    rw [← Argument.paths_list_map numbering ts (f := fun s => .scalar (.text s)) fun _ => rfl,
      mem_paths_list_iff]
    constructor
    · intro ht
      exact ⟨i, .scalar (.text t), [], by rw [List.getElem?_map, ht]; rfl, rfl,
        mem_paths_scalar_iff.2 ⟨rfl, rfl⟩⟩
    · rintro ⟨j, item, rest, hitem, hpath, hrest⟩
      have hij := index_injective numbering (naturalText_injective (List.cons.inj hpath).1)
      rw [← hij, List.getElem?_map, Option.map_eq_some_iff] at hitem
      obtain ⟨s, hs, rfl⟩ := hitem
      rw [hs, (mem_paths_scalar_iff.1 hrest).2]
      rfl
  refine List.ext_getElem? fun i => Option.ext fun t => ?_
  rw [hset, hset]
  exact h _

end Scalars

end Parameter

namespace Request

open Parameter

/-! ### Records whose scalars agree -/

lemma PrivateAddress.eq_of_agree {a b : PrivateAddress} (h : a.scalars.Agree b.scalars) :
    a = b := by
  rw [PrivateAddress.scalars, PrivateAddress.scalars] at h
  have hfields := h.fields rfl (by simp)
  simp only [List.map_cons, List.map_nil, List.forall₂_cons] at hfields
  obtain ⟨haddress, hprimary, -⟩ := hfields
  exact (PrivateAddress.mk.injEq ..).mpr
    ⟨Scalars.eq_of_agree_text haddress, Scalars.eq_of_agree_boolean hprimary⟩

/-- Private addresses that agree one by one are the same. -/
lemma PrivateAddress.eq_of_agree_list {as bs : List PrivateAddress}
    (hlength : as.length = bs.length)
    (h : Scalars.Agree (.list .fromZero (as.map PrivateAddress.scalars))
      (.list .fromZero (bs.map PrivateAddress.scalars))) : as = bs := by
  have hitems := h.items (by simpa using hlength)
  rw [List.forall₂_map_left_iff, List.forall₂_map_right_iff] at hitems
  have heq : List.Forall₂ Eq as bs := hitems.imp fun _ _ h => PrivateAddress.eq_of_agree h
  rwa [List.forall₂_eq_eq_eq] at heq

namespace Interface

lemma eq_of_agree {a b : Interface}
    (hlength : a.privateAddresses.length = b.privateAddresses.length)
    (h : a.scalars.Agree b.scalars) : a = b := by
  rw [scalars, scalars] at h
  have hfields := h.fields rfl (by simp)
  simp only [List.map_cons, List.map_nil, List.forall₂_cons] at hfields
  obtain ⟨hid, hdevice, hsubnet, hdescription, haddress, hgroups, hdelete, haddresses, hcount,
    hpublic, hswitch, -⟩ := hfields
  exact (Interface.mk.injEq ..).mpr ⟨Scalars.eq_of_agree_text hid,
    Scalars.eq_of_agree_number hdevice, Scalars.eq_of_agree_text hsubnet,
    Scalars.eq_of_agree_text hdescription, Scalars.eq_of_agree_text haddress,
    Scalars.eq_of_agree_texts hgroups, Scalars.eq_of_agree_boolean hdelete,
    PrivateAddress.eq_of_agree_list hlength haddresses, Scalars.eq_of_agree_number hcount,
    Scalars.eq_of_agree_boolean hpublic, Scalars.eq_of_agree_text hswitch⟩

/-! ### Launches -/

/-- The paths of the interfaces are those of the parameters behind a scope. -/
lemma paths_subset_of_named_subset {scope : Option String} {a b : List Interface}
    (h : (Argument.list .fromZero (arguments a)).named (qualify scope "NetworkInterface")
      ⊆ (Argument.list .fromZero (arguments b)).named (qualify scope "NetworkInterface")) :
    (Argument.list .fromZero (arguments a)).paths
      ⊆ (Argument.list .fromZero (arguments b)).paths := by
  have htidy : ∀ c, (Argument.object
      [("NetworkInterface", .list .fromZero (arguments c))]).Tidy := by
    intro c
    refine .object _ (by simp) (by simp) ?_
    simpa using tidy_arguments c
  have hnamed : ∀ c, Fields.named scope [("NetworkInterface", .list .fromZero (arguments c))]
      = (Argument.list .fromZero (arguments c)).named (qualify scope "NetworkInterface") := by
    intro c
    exact List.flatMap_singleton ..
  rw [← hnamed, ← hnamed, (htidy a).named_scope_subset_iff (htidy b)] at h
  rintro ⟨texts, wire⟩ hpath
  rw [← cons_mem_paths_object_iff (by simp) (List.mem_singleton_self _)] at hpath ⊢
  exact h hpath

lemma agree_of_encodeAll {scope : Option String} {a b : List Interface} {set : ParameterSet}
    (ha : encodeAll scope a = .ok set) (hb : encodeAll scope b = .ok set) :
    Scalars.Agree (.list .fromZero (a.map Interface.scalars))
      (.list .fromZero (b.map Interface.scalars)) := by
  have hpaths : ∀ c : List Interface, (Argument.list .fromZero (arguments c)).paths
      = (Scalars.list .fromZero (c.map Interface.scalars)).present :=
    fun c => Argument.paths_list_map .fromZero c Interface.paths_fields
  have hgeta := (of_encodeAll_eq_ok ha).2
  have hgetb := (of_encodeAll_eq_ok hb).2
  intro path
  rw [← hpaths, ← hpaths]
  constructor
  · intro hpath
    exact paths_subset_of_named_subset
      (fun p hp => (hgetb p.1 p.2).1 ((hgeta p.1 p.2).2 hp)) hpath
  · intro hpath
    exact paths_subset_of_named_subset
      (fun p hp => (hgeta p.1 p.2).1 ((hgetb p.1 p.2).2 hp)) hpath

/-- Launches with equally many interfaces, and these with equally many private addresses one by
one, that are encoded into the same parameters behind the same scope are the same. -/
theorem eq_of_encodeAll (scope : Option String) (a b : List Interface) (set : ParameterSet)
    (hsame : List.Forall₂
      (fun x y : Interface => x.privateAddresses.length = y.privateAddresses.length) a b)
    (ha : encodeAll scope a = .ok set) (hb : encodeAll scope b = .ok set) : a = b := by
  have hitems := (agree_of_encodeAll ha hb).items (by simpa using hsame.length_eq)
  rw [List.forall₂_map_left_iff, List.forall₂_map_right_iff] at hitems
  have heq : List.Forall₂ Eq a b :=
    List.Forall₂.mp (fun x y hlength h => eq_of_agree hlength h) hsame hitems
  rwa [List.forall₂_eq_eq_eq] at heq

/-- How many private addresses there are is not told by the parameters. -/
example : encodeAll none [{}] = encodeAll none [{ privateAddresses := [{}] }] := by decide +kernel

theorem eq_of_encodeAll_sample :
    let one : List Interface := [{}, {
      subnetId := some ""
      securityGroupIds := ["g", "g"]
      privateAddresses := [{}, { address := some "", isPrimary := some false }] }]
    let other : List Interface := [⟨none, none, none, none, none, [], none, [], none, none, none⟩, {
      subnetId := some ("" ++ "")
      securityGroupIds := List.replicate 2 "g"
      privateAddresses := [⟨none, none⟩, ⟨some "", some false⟩] }]
    let set : ParameterSet := .ofList [("P.NetworkInterface.1.SubnetId", ""),
      ("P.NetworkInterface.1.SecurityGroupId.0", "g"),
      ("P.NetworkInterface.1.SecurityGroupId.1", "g"),
      ("P.NetworkInterface.1.PrivateIpAddresses.1.PrivateIpAddress", ""),
      ("P.NetworkInterface.1.PrivateIpAddresses.1.Primary", "false")]
    List.Forall₂ (fun x y : Interface => x.privateAddresses.length = y.privateAddresses.length)
        one other ∧
      encodeAll (some "P") one = .ok set ∧ encodeAll (some "P") other = .ok set ∧
      one = other := by
  intro one other set
  have hsame : List.Forall₂
      (fun x y : Interface => x.privateAddresses.length = y.privateAddresses.length) one other :=
    .cons rfl (.cons rfl .nil)
  have hset : encodeAll (some "P") one = .ok set := by decide +kernel
  have hset' : encodeAll (some "P") other = .ok set := by decide +kernel
  exact ⟨hsame, hset, hset', eq_of_encodeAll (some "P") one other set hsame hset hset'⟩

end Interface

end Request

end CloudCodec
