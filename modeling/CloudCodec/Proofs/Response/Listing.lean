/-
# Listings

A list takes in the elements of its marker, wherever they stand, and a page does the same with the
items of its envelope.  So what is decoded into a list or a page that holds members already is put
behind them: one member for every marked element that is not inside another one, in document order,
each what its element alone would be decoded to (`IsMember`).  Of the leaves outside the members a
page keeps the last one of each of its fields, and a list none (`decode_listing`).
-/
import CloudCodec.Proofs.Response.Contents

namespace CloudCodec.Response

open Decode Xml Node

/-! ### The description -/

/-- The names under which responses carry the token of their next page. -/
def nextTokenNames : List String := ["nextToken", "NextToken"]

/-- The names under which responses tell that there are more pages. -/
def isTruncatedNames : List String := ["isTruncated", "IsTruncated"]

/-- The page of some members with what its envelope said. -/
def Node.pageOf (marker : String) (entity : Entity) (members : List Node)
    (requestId? nextToken? : Option String) (isTruncated? : Option Bool) : Node :=
  ⟨.page marker entity, [.records members.reverse, .value (requestId?.map .text),
    .value (nextToken?.map .text), .value (isTruncated?.map .boolean)], ∅⟩

/-- The record is what the element alone is decoded to as an entity, and the fresh one if the
element holds no element. -/
def IsMember (entity : Entity) (e : Element) (child : Node) : Prop :=
  if e.isLeaf then child = fresh (.entity entity)
  else dispatch none e.events (fresh (.entity entity)) = .ok () child

/-- The text of the last leaf with one of some names, or the text from before if there is none. -/
def lastText? (names : List String) (leaves : List Element) (before : Option String) :
    Option String :=
  ((named names leaves).getLast?.map Element.text).or before

/-- The flag is what the last leaf with one of some names says, which is one of two words, or as
before if there is none. -/
def IsLastFlag (names : List String) (leaves : List Element) (before after : Option Bool) : Prop :=
  match (named names leaves).getLast? with
  | none => after = before
  | some e => e.text = "true" ∧ after = some true ∨ e.text = "false" ∧ after = some false

/-! ### What lists and pages claim and read -/

section Slots

variable {marker name : String} {entity : Entity}

lemma claimingSlot?_collector (marker name : String) (entity : Entity) :
    (Shape.collector marker entity).claimingSlot? name
      = if name = marker then some (0, .members entity) else none := by
  by_cases h : name = marker <;>
    simp [Shape.claimingSlot?, Shape.slots, Content.isClaiming, Content.leafKind?, h]

lemma claimingSlot?_page (marker name : String) (entity : Entity) :
    (Shape.page marker entity).claimingSlot? name
      = if name = marker then some (0, .members entity) else none := by
  by_cases h : name = marker <;>
    simp [Shape.claimingSlot?, Shape.slots, Content.isClaiming, Content.leafKind?,
      List.findIdx?_cons, h]

lemma leafSlot?_collector (marker name : String) (entity : Entity) :
    (Shape.collector marker entity).leafSlot? name = none := by
  simp [Shape.leafSlot?, Shape.slots, Content.isClaiming, Content.leafKind?]

lemma leafSlot?_page (marker name : String) (entity : Entity) :
    (Shape.page marker entity).leafSlot? name
      = if name ∈ requestIdNames then some (1, .text)
        else if name ∈ nextTokenNames then some (2, .text)
        else if name ∈ isTruncatedNames then some (3, .boolean) else none := by
  split_ifs with hrequest hnext htruncated
  · exact Shape.leafSlot?_of_mem (i := 1) rfl rfl hrequest
  · exact Shape.leafSlot?_of_mem (i := 2) rfl rfl hnext
  · exact Shape.leafSlot?_of_mem (i := 3) rfl rfl htruncated
  · have hnone : ∀ slot ∈ (Shape.page marker entity).slots,
        (!slot.content.isClaiming && slot.names.contains name) = false := by
      simpa [Shape.slots, Content.isClaiming, Content.leafKind?] using
        ⟨hrequest, by simpa [nextTokenNames] using hnext,
          by simpa [isTruncatedNames] using htruncated⟩
    rw [Shape.leafSlot?]
    simp only [List.findIdx?_eq_none_iff.2 hnone, Option.bind_none]

end Slots

/-! ### One element more -/

section Element

variable {marker : String} {entity : Entity} {e : Element} {members older : List Node}
  {node node' child : Node}

/-- A marked element is read into a fresh record, which is put before the older ones. -/
lemma exists_isMember_of_readElement
    (hslot : node.shape.claimingSlot? e.name = some (0, .members entity))
    (hcell : node.cells[0]? = some (.records older))
    (hunclaimed : (Shape.entity entity).claims e.name = false)
    (hread : readElement e node = .ok () node') :
    ∃ child, IsMember entity e child ∧
      node' = node.modifyCell 0 fun _ => .records (child :: older) := by
  rw [readElement_of_claimingSlot hslot rfl hcell] at hread
  cases hchildren : readAll e.children (fresh (.entity entity)) with
  | error error child =>
    rw [hchildren] at hread
    cases hread
  | ok _ child =>
    rw [hchildren] at hread
    cases hread
    refine ⟨child, ?_, rfl⟩
    rcases e with ⟨name, attributes, children, text⟩
    by_cases hleaf : children = []
    · subst hleaf
      cases hchildren
      simp [IsMember, Element.isLeaf]
    · -- the entity does not claim its own element, so it reads what the element holds
      have hclaim : Receiver.claim (fresh (.entity entity)) name attributes
          = (false, fresh (.entity entity)) :=
        claim_of_none (claims_eq_false_iff.1 hunclaimed)
      rw [IsMember, if_neg (by simpa [Element.isLeaf] using hleaf),
        dispatch_eq_readElement _ (handsBack _), readElement_of_unclaimed hclaim hleaf]
      exact hchildren

/-- A leaf that is not claimed is taken in by its name and text. -/
lemma readElement_of_isLeaf (hclaims : node.shape.claimingSlot? e.name = none)
    (hleaf : e.isLeaf = true) : readElement e node = Receiver.takeLeaf e.name e.text node := by
  rcases e with ⟨name, attributes, children, text⟩
  obtain rfl : children = [] := by simpa [Element.isLeaf] using hleaf
  exact readElement_leaf (claim_of_none hclaims)

/-- A list takes in a member or ignores a leaf. -/
lemma readElement_collectorOf (hunclaimed : (Shape.entity entity).claims marker = false)
    (hwhole : (e.name == marker || e.isLeaf) = true)
    (hread : readElement e (collectorOf marker entity members) = .ok () node) :
    ∃ new, List.Forall₂ (IsMember entity) ([e].filter fun e => e.name == marker) new ∧
      node = collectorOf marker entity (members ++ new) := by
  by_cases hname : e.name = marker
  · have hslot : (collectorOf marker entity members).shape.claimingSlot? e.name
        = some (0, .members entity) :=
      (claimingSlot?_collector marker e.name entity).trans (if_pos hname)
    obtain ⟨child, hchild, rfl⟩ :=
      exists_isMember_of_readElement hslot rfl (hname ▸ hunclaimed) hread
    exact ⟨[child], by simpa [hname] using hchild, by simp [collectorOf, modifyCell]⟩
  · have hslot : (collectorOf marker entity members).shape.claimingSlot? e.name = none :=
      (claimingSlot?_collector marker e.name entity).trans (if_neg hname)
    rw [readElement_of_isLeaf hslot (by simpa [hname] using hwhole),
      takeLeaf_of_none (leafSlot?_collector marker e.name entity)] at hread
    cases hread
    exact ⟨[], by simp [hname], by rw [List.append_nil]; rfl⟩

end Element

/-! ### The fields of a page -/

section Page

variable {marker : String} {entity : Entity} {e : Element} {names : List String}
  {ls ls' : List Element} {members : List Node} {node : Node}
  {requestId? nextToken? : Option String} {isTruncated? isTruncated'? isTruncated''? : Option Bool}

lemma lastText?_append (names : List String) (ls ls' : List Element) (before : Option String) :
    lastText? names (ls ++ ls') before = lastText? names ls' (lastText? names ls before) := by
  rw [lastText?, named, List.filter_append, List.getLast?_append, Option.map_or, Option.or_assoc]
  rfl

lemma lastText?_singleton (names : List String) (e : Element) (before : Option String) :
    lastText? names [e] before = if e.name ∈ names then some e.text else before := by
  by_cases hname : e.name ∈ names <;> simp [lastText?, named, hname]

lemma isLastFlag_nil (names : List String) (isTruncated? : Option Bool) :
    IsLastFlag names [] isTruncated? isTruncated? := rfl

lemma IsLastFlag.append (h : IsLastFlag names ls isTruncated? isTruncated'?)
    (h' : IsLastFlag names ls' isTruncated'? isTruncated''?) :
    IsLastFlag names (ls ++ ls') isTruncated? isTruncated''? := by
  rw [IsLastFlag] at h h' ⊢
  rw [named, List.filter_append, List.getLast?_append]
  rw [named] at h h'
  cases hlast : (ls'.filter fun e => names.contains e.name).getLast? with
  | some e =>
    rw [hlast] at h'
    exact h'
  | none =>
    rw [hlast] at h'
    obtain rfl : isTruncated''? = isTruncated'? := h'
    exact h

lemma isLastFlag_singleton_of_mem {b : Bool} (hname : e.name ∈ names)
    (hread : readBoolean e.name e.text = .ok b) : IsLastFlag names [e] isTruncated? (some b) := by
  have hnamed : named names [e] = [e] := by simp [named, hname]
  rw [IsLastFlag, hnamed]
  rcases readBoolean_eq_ok_iff.1 hread with ⟨htext, rfl⟩ | ⟨htext, rfl⟩
  · exact .inl ⟨htext, rfl⟩
  · exact .inr ⟨htext, rfl⟩

lemma isLastFlag_singleton_of_notMem (hname : e.name ∉ names) :
    IsLastFlag names [e] isTruncated? isTruncated? := by
  have hnamed : named names [e] = [] := by simp [named, hname]
  rw [IsLastFlag, hnamed]
  rfl

/-- A page takes in a leaf of one of its fields, or ignores it. -/
lemma takeLeaf_pageOf
    (h : Receiver.takeLeaf e.name e.text
      (pageOf marker entity members requestId? nextToken? isTruncated?) = .ok () node) :
    ∃ isTruncated'?, IsLastFlag isTruncatedNames [e] isTruncated? isTruncated'? ∧
      node = pageOf marker entity members (lastText? requestIdNames [e] requestId?)
        (lastText? nextTokenNames [e] nextToken?) isTruncated'? := by
  have hslot := leafSlot?_page marker e.name entity
  have hapart : ∀ name ∈ requestIdNames, name ∉ nextTokenNames ∧ name ∉ isTruncatedNames := by
    decide
  have hapart' : ∀ name ∈ nextTokenNames, name ∉ isTruncatedNames := by decide
  simp only [lastText?_singleton]
  by_cases hrequest : e.name ∈ requestIdNames
  · obtain ⟨hnext, htruncated⟩ := hapart e.name hrequest
    rw [if_pos hrequest] at hslot
    rw [takeLeaf_of_ok hslot rfl] at h
    cases h
    rw [if_pos hrequest, if_neg hnext]
    exact ⟨isTruncated?, isLastFlag_singleton_of_notMem htruncated, rfl⟩
  · rw [if_neg hrequest] at hslot ⊢
    by_cases hnext : e.name ∈ nextTokenNames
    · have htruncated := hapart' e.name hnext
      rw [if_pos hnext] at hslot
      rw [takeLeaf_of_ok hslot rfl] at h
      cases h
      rw [if_pos hnext]
      exact ⟨isTruncated?, isLastFlag_singleton_of_notMem htruncated, rfl⟩
    · rw [if_neg hnext] at hslot ⊢
      by_cases htruncated : e.name ∈ isTruncatedNames
      · rw [if_pos htruncated] at hslot
        cases hread : readBoolean e.name e.text with
        | ok b =>
          have hkind : Kind.boolean.read e.name e.text = .ok (.boolean b) := by
            rw [Kind.read, hread]
            rfl
          rw [takeLeaf_of_ok hslot hkind] at h
          cases h
          exact ⟨some b, isLastFlag_singleton_of_mem htruncated hread, rfl⟩
        | error error =>
          have hkind : Kind.boolean.read e.name e.text = .error error := by
            rw [Kind.read, hread]
            rfl
          rw [takeLeaf_of_error hslot hkind] at h
          cases h
      · rw [if_neg htruncated] at hslot
        rw [takeLeaf_of_none hslot] at h
        cases h
        exact ⟨isTruncated?, isLastFlag_singleton_of_notMem htruncated, rfl⟩

/-- A page takes in a member or a leaf. -/
lemma readElement_pageOf (hunclaimed : (Shape.entity entity).claims marker = false)
    (hwhole : (e.name == marker || e.isLeaf) = true)
    (hread : readElement e (pageOf marker entity members requestId? nextToken? isTruncated?)
      = .ok () node) :
    ∃ new isTruncated'?,
      List.Forall₂ (IsMember entity) ([e].filter fun e => e.name == marker) new ∧
      IsLastFlag isTruncatedNames ([e].filter fun e => !(e.name == marker)) isTruncated?
        isTruncated'? ∧
      node = pageOf marker entity (members ++ new)
        (lastText? requestIdNames ([e].filter fun e => !(e.name == marker)) requestId?)
        (lastText? nextTokenNames ([e].filter fun e => !(e.name == marker)) nextToken?)
        isTruncated'? := by
  by_cases hname : e.name = marker
  · have hslot : (pageOf marker entity members requestId? nextToken?
        isTruncated?).shape.claimingSlot? e.name = some (0, .members entity) :=
      (claimingSlot?_page marker e.name entity).trans (if_pos hname)
    obtain ⟨child, hchild, rfl⟩ :=
      exists_isMember_of_readElement hslot rfl (hname ▸ hunclaimed) hread
    have hnone : ([e].filter fun e => !(e.name == marker)) = [] := by simp [hname]
    rw [hnone]
    exact ⟨[child], isTruncated?, by simpa [hname] using hchild, isLastFlag_nil _ isTruncated?,
      by simp [pageOf, modifyCell, lastText?, named]⟩
  · have hslot : (pageOf marker entity members requestId? nextToken?
        isTruncated?).shape.claimingSlot? e.name = none :=
      (claimingSlot?_page marker e.name entity).trans (if_neg hname)
    rw [readElement_of_isLeaf hslot (by simpa [hname] using hwhole)] at hread
    obtain ⟨isTruncated'?, hflag, rfl⟩ := takeLeaf_pageOf hread
    have hself : ([e].filter fun e => !(e.name == marker)) = [e] := by simp [hname]
    rw [hself]
    exact ⟨[], isTruncated'?, by simp [hname], hflag, by rw [List.append_nil]⟩

end Page

/-! ### Whole documents -/

section Documents

variable {marker : String} {entity : Entity} {es : List Element} {members : List Node} {node : Node}
  {requestId? nextToken? : Option String} {isTruncated? : Option Bool}

/-- A list takes in elements one after the other. -/
lemma readAll_collectorOf (hunclaimed : (Shape.entity entity).claims marker = false)
    (hes : ∀ e ∈ es, (e.name == marker || e.isLeaf) = true)
    (hread : readAll es (collectorOf marker entity members) = .ok () node) :
    ∃ new, List.Forall₂ (IsMember entity) (es.filter fun e => e.name == marker) new ∧
      node = collectorOf marker entity (members ++ new) := by
  induction es using List.reverseRecOn generalizing node with
  | nil =>
    cases hread
    exact ⟨[], .nil, by rw [List.append_nil]⟩
  | append_singleton es e ih =>
    obtain ⟨mid, hmid, hlast⟩ := exists_of_readAll_concat hread
    obtain ⟨new, hnew, rfl⟩ := ih (fun e he => hes e (List.mem_append_left _ he)) hmid
    obtain ⟨more, hmore, rfl⟩ :=
      readElement_collectorOf hunclaimed (hes e List.mem_concat_self) hlast
    refine ⟨new ++ more, ?_, by rw [List.append_assoc]⟩
    rw [List.filter_append]
    exact List.rel_append hnew hmore

/-- A page takes in elements one after the other. -/
lemma readAll_pageOf (hunclaimed : (Shape.entity entity).claims marker = false)
    (hes : ∀ e ∈ es, (e.name == marker || e.isLeaf) = true)
    (hread : readAll es (pageOf marker entity members requestId? nextToken? isTruncated?)
      = .ok () node) :
    ∃ new isTruncated'?,
      List.Forall₂ (IsMember entity) (es.filter fun e => e.name == marker) new ∧
      IsLastFlag isTruncatedNames (es.filter fun e => !(e.name == marker)) isTruncated?
        isTruncated'? ∧
      node = pageOf marker entity (members ++ new)
        (lastText? requestIdNames (es.filter fun e => !(e.name == marker)) requestId?)
        (lastText? nextTokenNames (es.filter fun e => !(e.name == marker)) nextToken?)
        isTruncated'? := by
  induction es using List.reverseRecOn generalizing node with
  | nil =>
    cases hread
    exact ⟨[], isTruncated?, .nil, isLastFlag_nil _ isTruncated?, by simp [lastText?, named]⟩
  | append_singleton es e ih =>
    obtain ⟨mid, hmid, hlast⟩ := exists_of_readAll_concat hread
    obtain ⟨new, isTruncated'?, hnew, hflag, rfl⟩ :=
      ih (fun e he => hes e (List.mem_append_left _ he)) hmid
    obtain ⟨more, isTruncated''?, hmore, hflag', rfl⟩ :=
      readElement_pageOf hunclaimed (hes e List.mem_concat_self) hlast
    refine ⟨new ++ more, isTruncated''?, ?_, ?_, ?_⟩
    · rw [List.filter_append]
      exact List.rel_append hnew hmore
    · rw [List.filter_append]
      exact hflag.append hflag'
    · rw [List.filter_append, lastText?_append, lastText?_append, List.append_assoc]

/-- No entity claims the usual marker. -/
lemma claims_itemMarker (entity : Entity) : (Shape.entity entity).claims "item" = false := by
  cases entity <;> decide

/-- An accepted document is read along the elements that a record takes in as a whole. -/
lemma readAll_frontier_of_decode {root : Node} {trim : Bool} {bytes : List UInt8}
    (h : decode ⟨trim, none⟩ bytes root = .ok () node) :
    ∃ e : Element, Event.ofDocument trim bytes = .ok e.events ∧
      readAll (frontier root.shape.claims [e]) root = .ok () node := by
  cases hdocument : Event.ofDocument trim bytes with
  | error fault =>
    simp only [decode, hdocument] at h
    cases h
  | ok events =>
    obtain ⟨e, rfl⟩ := exists_eq_events hdocument
    simp only [decode, hdocument] at h
    rw [dispatch_eq_readElement root (handsBack root)] at h
    exact ⟨e, rfl, (readAll_frontier_singleton e rfl).trans h⟩

/-- What a decoding without a limit adds to a list or a page whose entity does not claim the marker,
which none does if the marker is the usual one.  The members from before stay in front, and every
outermost marked element adds what it alone is decoded to.  A page is told its fields by the last
leaves outside the members; the leaves outside the members of a list add nothing. -/
theorem decode_listing (entity : Entity) (trim : Bool) (bytes : List UInt8) (members : List Node)
    (node : Node) :
    (Shape.entity entity).claims "item" = false ∧
    ∀ marker, (Shape.entity entity).claims marker = false →
      (decode ⟨trim, none⟩ bytes (collectorOf marker entity members) = .ok () node →
        ∃ e new, Event.ofDocument trim bytes = .ok e.events ∧
          List.Forall₂ (IsMember entity) (claimed (· == marker) [e]) new ∧
          node = collectorOf marker entity (members ++ new)) ∧
      ∀ requestId? nextToken? isTruncated?,
        decode ⟨trim, none⟩ bytes (pageOf marker entity members requestId? nextToken? isTruncated?)
          = .ok () node →
        ∃ e new isTruncated'?, Event.ofDocument trim bytes = .ok e.events ∧
          List.Forall₂ (IsMember entity) (claimed (· == marker) [e]) new ∧
          IsLastFlag ["isTruncated", "IsTruncated"] (leaves (· == marker) [e]) isTruncated?
            isTruncated'? ∧
          node = pageOf marker entity (members ++ new)
            (lastText? ["requestId", "RequestId"] (leaves (· == marker) [e]) requestId?)
            (lastText? ["nextToken", "NextToken"] (leaves (· == marker) [e]) nextToken?)
            isTruncated'? := by
  refine ⟨claims_itemMarker entity, fun marker hunclaimed => ⟨?_, ?_⟩⟩
  · intro h
    obtain ⟨e, hdocument, hread⟩ := readAll_frontier_of_decode h
    have hclaims : (collectorOf marker entity members).shape.claims = (· == marker) := by
      funext name
      by_cases hname : name = marker <;>
        simp [collectorOf, Shape.claims, claimingSlot?_collector, hname]
    rw [hclaims] at hread
    obtain ⟨new, hnew, rfl⟩ :=
      readAll_collectorOf hunclaimed (fun e he => whole_of_mem_frontier he) hread
    have hclaimed : (Xml.frontier (· == marker) [e]).filter (fun e => e.name == marker)
        = claimed (· == marker) [e] := @filter_frontier_claimed (· == marker) [e]
    rw [hclaimed] at hnew
    exact ⟨e, new, hdocument, hnew, rfl⟩
  · intro requestId? nextToken? isTruncated? h
    obtain ⟨e, hdocument, hread⟩ := readAll_frontier_of_decode h
    have hclaims : (pageOf marker entity members requestId? nextToken? isTruncated?).shape.claims
        = (· == marker) := by
      funext name
      by_cases hname : name = marker <;>
        simp [pageOf, Shape.claims, claimingSlot?_page, hname]
    rw [hclaims] at hread
    obtain ⟨new, isTruncated'?, hnew, hflag, rfl⟩ :=
      readAll_pageOf hunclaimed (fun e he => whole_of_mem_frontier he) hread
    have hclaimed : (Xml.frontier (· == marker) [e]).filter (fun e => e.name == marker)
        = claimed (· == marker) [e] := @filter_frontier_claimed (· == marker) [e]
    have hleaves : (Xml.frontier (· == marker) [e]).filter (fun e => !(e.name == marker))
        = leaves (· == marker) [e] := @filter_frontier_leaves (· == marker) [e]
    rw [hclaimed] at hnew
    rw [hleaves] at hflag ⊢
    exact ⟨e, new, isTruncated'?, hdocument, hnew, hflag, rfl⟩

/-- A marked element inside another one, an empty one further down and two leaves of the
envelope. -/
def sampleListing : String :=
  "<r><item><key>k</key><item/></item><x><item/><NextToken>m</NextToken></x>"
    ++ "<isTruncated>true</isTruncated></r>"

/-- The members that it adds. -/
def sampleMembers : List Node := [tag (some "k") none, tag none none]

theorem decode_listing_sample :
    (Shape.entity .tag).claims "item" = false ∧
    decode ⟨true, none⟩ (Utf8.encode sampleListing)
        (collectorOf "item" .tag [tag (some "j") none])
      = .ok () (collectorOf "item" .tag (tag (some "j") none :: sampleMembers)) ∧
    (∃ e new, Event.ofDocument true (Utf8.encode sampleListing) = .ok e.events ∧
      List.Forall₂ (IsMember .tag) (claimed (· == "item") [e]) new ∧
      collectorOf "item" .tag (tag (some "j") none :: sampleMembers)
        = collectorOf "item" .tag ([tag (some "j") none] ++ new)) ∧
    decode ⟨true, none⟩ (Utf8.encode sampleListing)
        (pageOf "item" .tag [tag (some "j") none] (some "q") (some "l") none)
      = .ok () (pageOf "item" .tag (tag (some "j") none :: sampleMembers) (some "q") (some "m")
          (some true)) ∧
    ∃ e new isTruncated?, Event.ofDocument true (Utf8.encode sampleListing) = .ok e.events ∧
      List.Forall₂ (IsMember .tag) (claimed (· == "item") [e]) new ∧
      IsLastFlag ["isTruncated", "IsTruncated"] (leaves (· == "item") [e]) none isTruncated? ∧
      pageOf "item" .tag (tag (some "j") none :: sampleMembers) (some "q") (some "m") (some true)
        = pageOf "item" .tag ([tag (some "j") none] ++ new)
          (lastText? ["requestId", "RequestId"] (leaves (· == "item") [e]) (some "q"))
          (lastText? ["nextToken", "NextToken"] (leaves (· == "item") [e]) (some "l"))
          isTruncated? := by
  have hunclaimed : (Shape.entity .tag).claims "item" = false := by decide
  have hlist : decode ⟨true, none⟩ (Utf8.encode sampleListing)
      (collectorOf "item" .tag [tag (some "j") none])
      = .ok () (collectorOf "item" .tag (tag (some "j") none :: sampleMembers)) := by cbv
  have hpage : decode ⟨true, none⟩ (Utf8.encode sampleListing)
      (pageOf "item" .tag [tag (some "j") none] (some "q") (some "l") none)
      = .ok () (pageOf "item" .tag (tag (some "j") none :: sampleMembers) (some "q") (some "m")
          (some true)) := by cbv
  have hlisted := ((decode_listing .tag true (Utf8.encode sampleListing)
    [tag (some "j") none] _).2 "item" hunclaimed).1 hlist
  have hpaged := ((decode_listing .tag true (Utf8.encode sampleListing)
    [tag (some "j") none] _).2 "item" hunclaimed).2 (some "q") (some "l") none hpage
  exact ⟨hunclaimed, hlist, hlisted, hpage, hpaged⟩

end Documents

end CloudCodec.Response
