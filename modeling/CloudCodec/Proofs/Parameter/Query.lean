/-
# Query texts read back

A query text that is not empty is cut into pieces at each `&`, and a piece into a name and a value
at its only `=`.  Both are bytes of UTF-8 in which a percent sign with two hexadecimal digits means
one byte.  The reader below knows nothing of the writer, and accepts either case of the digits.

The writer lets no byte through that the reader takes for a mark (`queryText_plain`), so whatever
characters the names and values of a set have, its query text says exactly its pairs, in the order
of the bytes of their names (`query_tells_entries`).
-/
import CloudCodec.Numeral.Digits
import CloudCodec.Parameter.Set
import CloudCodec.Proofs.Text.Utf8
import CloudCodec.Proofs.TextMap
import Mathlib

namespace CloudCodec

/-! ### Reading a query -/

namespace Query

/-- The byte that two hexadecimal digits denote. -/
def escapedByte? (high low : Char) : Option UInt8 :=
  match Numeral.digit? 16 high, Numeral.digit? 16 low with
  | some h, some l => some (UInt8.ofNat (h * 16 + l))
  | _, _ => none

/-- The bytes that a text in a query means. -/
def bytes? : List Char → Option (List UInt8)
  | [] => some []
  | c :: rest =>
    if c = '%' then
      match rest with
      | high :: low :: rest =>
        match escapedByte? high low, bytes? rest with
        | some b, some bs => some (b :: bs)
        | _, _ => none
      | _ => none
    else (bytes? rest).map fun bs => Utf8.ofChar c ++ bs

/-- The text that is meant. -/
def text? (cs : List Char) : Option String := (bytes? cs).bind fun bs => (Utf8.decode bs).toOption

/-- The name and the value of a piece that has one `=`. -/
def pair? (piece : List Char) : Option (String × String) :=
  match piece.splitOn '=' with
  | [name, value] => (text? name).bind fun n => (text? value).map fun v => (n, v)
  | _ => none

/-- The pairs of a query in order.  The empty query has none, and every piece of another one is a
pair. -/
def pairs? (query : String) : Option (List (String × String)) :=
  if query = "" then some [] else (query.toList.splitOn '&').mapM pair?

example : pairs? "a=%2b%C3%A9&=&%26=+" = some [("a", "+é"), ("", ""), ("&", "+")] := by cbv

example : pairs? "a=b&&c=d" = none := by cbv

end Query

namespace ParameterSet

open Query

/-! ### The characters of a query -/

lemma toNat_charOf {n : Nat} (h : n < 0x80) : (Char.ofNat n).toNat = n := by
  have hvalid : n.isValidChar := .inl (by omega)
  rw [Char.ofNat, dif_pos hvalid]
  rfl

lemma digit?_hexDigit {n : Nat} (h : n < 16) : Numeral.digit? 16 (hexDigit n) = some n := by
  revert n
  decide

lemma hexDigit_plain {n : Nat} (h : n < 16) : hexDigit n ≠ '&' ∧ hexDigit n ≠ '=' := by
  revert n
  decide

/-- An unreserved byte is ASCII and none of the marks of a query. -/
lemma unreserved_plain {b : UInt8} (h : isUnreserved b = true) :
    b.toNat < 0x80 ∧ Char.ofNat b.toNat ≠ '%' ∧ Char.ofNat b.toNat ≠ '&' ∧
      Char.ofNat b.toNat ≠ '=' := by
  simp only [isUnreserved, Bool.or_eq_true, Bool.and_eq_true, decide_eq_true_eq,
    beq_iff_eq] at h
  have hlt : b.toNat < 0x80 := by omega
  refine ⟨hlt, ?_, ?_, ?_⟩ <;>
  · intro hmark
    have hnumber := congrArg Char.toNat hmark
    rw [toNat_charOf hlt] at hnumber
    simp at hnumber
    omega

/-- No byte is written with a mark that cuts a query. -/
lemma queryByte_plain {b : UInt8} {c : Char} (h : c ∈ queryByte b) : c ≠ '&' ∧ c ≠ '=' := by
  have hb := b.toNat_lt
  unfold queryByte at h
  split_ifs at h with hunreserved
  · obtain ⟨-, -, hand, hequals⟩ := unreserved_plain hunreserved
    rw [List.mem_singleton.1 h]
    exact ⟨hand, hequals⟩
  · simp only [List.mem_cons, List.not_mem_nil, or_false] at h
    rcases h with rfl | rfl | rfl
    · decide
    · exact hexDigit_plain (by omega)
    · exact hexDigit_plain (by omega)

/-- No text is written with a mark that cuts a query. -/
lemma queryText_plain (s : String) : '&' ∉ queryText s ∧ '=' ∉ queryText s := by
  constructor <;> intro h <;> obtain ⟨b, -, hb⟩ := List.mem_flatMap.1 h
  · exact (queryByte_plain hb).1 rfl
  · exact (queryByte_plain hb).2 rfl

/-! ### A text read back -/

lemma bytes?_queryByte (b : UInt8) (rest : List Char) :
    bytes? (queryByte b ++ rest) = (bytes? rest).map fun bs => b :: bs := by
  have hb := b.toNat_lt
  unfold queryByte
  split_ifs with hunreserved
  · obtain ⟨hlt, hpercent, -, -⟩ := unreserved_plain hunreserved
    have hbyte : Utf8.ofChar (Char.ofNat b.toNat) = [b] := by
      rw [Utf8.ofChar_of_lt (by rwa [toNat_charOf hlt]), toNat_charOf hlt, UInt8.ofNat_toNat]
    rw [List.singleton_append, bytes?.eq_def]
    simp only [hpercent, if_false, hbyte, List.singleton_append]
  · have hescaped : escapedByte? (hexDigit (b.toNat / 16)) (hexDigit (b.toNat % 16)) = some b := by
      have hsum : b.toNat / 16 * 16 + b.toNat % 16 = b.toNat := by omega
      simp only [escapedByte?, digit?_hexDigit (show b.toNat / 16 < 16 by omega),
        digit?_hexDigit (show b.toNat % 16 < 16 by omega), hsum, UInt8.ofNat_toNat]
    rw [List.cons_append, List.cons_append, List.singleton_append, bytes?.eq_def]
    simp only [if_true, hescaped]
    cases bytes? rest <;> rfl

lemma bytes?_queryText (bs : List UInt8) : bytes? (bs.flatMap queryByte) = some bs := by
  induction bs with
  | nil => rfl
  | cons b bs ih => rw [List.flatMap_cons, bytes?_queryByte, ih, Option.map_some]

/-- A text is read back from the form that it has in a query. -/
lemma text?_queryText (s : String) : text? (queryText s) = some s := by
  rw [text?, queryText, bytes?_queryText, Option.bind_some, Utf8.decode_encode]
  rfl

/-! ### Pairs read back -/

/-- A piece is cut at its only `=`. -/
lemma splitOn_queryPair (p : String × String) :
    (queryPair p).splitOn '=' = [queryText p.1, queryText p.2] := by
  have hjoin : queryPair p = ['='].intercalate [queryText p.1, queryText p.2] := by
    simp [queryPair, List.intercalate]
  rw [hjoin]
  refine List.splitOn_intercalate '=' ?_ (by simp)
  intro piece hpiece
  simp only [List.mem_cons, List.not_mem_nil, or_false] at hpiece
  rcases hpiece with rfl | rfl
  · exact (queryText_plain p.1).2
  · exact (queryText_plain p.2).2

lemma pair?_queryPair (p : String × String) : pair? (queryPair p) = some p := by
  rw [pair?, splitOn_queryPair]
  simp only [text?_queryText, Option.bind_some, Option.map_some]

lemma queryPair_ne_nil (p : String × String) : queryPair p ≠ [] := by simp [queryPair]

lemma ampersand_notMem_queryPair (p : String × String) : '&' ∉ queryPair p := by
  rw [queryPair, List.mem_append, List.mem_cons, not_or, not_or]
  exact ⟨(queryText_plain p.1).1, by decide, (queryText_plain p.2).1⟩

/-- The pieces of a query are those of its pairs. -/
lemma splitOn_pieces {pairs : List (String × String)} (h : pairs ≠ []) :
    (['&'].intercalate (pairs.map queryPair)).splitOn '&' = pairs.map queryPair := by
  refine List.splitOn_intercalate '&' ?_ (by simpa using h)
  intro piece hpiece
  obtain ⟨q, -, rfl⟩ := List.mem_map.1 hpiece
  exact ampersand_notMem_queryPair q

/-- Only the query of no pairs is empty. -/
lemma intercalate_queryPair_ne_nil {pairs : List (String × String)} (h : pairs ≠ []) :
    ['&'].intercalate (pairs.map queryPair) ≠ [] := by
  intro hnil
  have hsplit := splitOn_pieces h
  rw [hnil, List.splitOn_nil] at hsplit
  obtain ⟨q, -, hq⟩ := List.mem_map.1 (hsplit ▸ List.mem_singleton_self [])
  exact queryPair_ne_nil q hq

lemma mapM_pair?_queryPair (pairs : List (String × String)) :
    (pairs.map queryPair).mapM pair? = some pairs := by
  induction pairs with
  | nil => rfl
  | cons p pairs ih =>
    rw [List.map_cons, List.mapM_cons, pair?_queryPair, ih]
    rfl

/-- The query text of a set says its pairs. -/
lemma pairs?_query (set : ParameterSet) : pairs? set.query = some set.entries := by
  by_cases hentries : set.entries = []
  · rw [query, hentries]
    rfl
  · have hne : set.query ≠ "" := by
      simpa [query] using intercalate_queryPair_ne_nil hentries
    rw [pairs?, if_neg hne, query, String.toList_ofList, splitOn_pieces hentries,
      mapM_pair?_queryPair]

/-- The names of a set increase by their bytes. -/
lemma pairwise_encode_names (set : ParameterSet) :
    (set.entries.map fun p => Utf8.encode p.1).Pairwise (· < ·) :=
  List.pairwise_map.2 (set.sorted.imp Utf8.encode_lt_encode)

/-- The query text of a set says what the set binds, each pair once and in the order of the bytes
of the names, and nothing else; so sets with the same query text are equal. -/
theorem query_tells_entries (set : ParameterSet) :
    pairs? set.query = some set.entries ∧
      (∀ name value, (name, value) ∈ set.entries ↔ set.get? name = some value) ∧
      (set.entries.map fun p => Utf8.encode p.1).Pairwise (· < ·) ∧
      ∀ other : ParameterSet, other.query = set.query → other = set := by
  refine ⟨pairs?_query set, fun name value => TextMap.mem_entries_iff,
    pairwise_encode_names set, ?_⟩
  intro other h
  have hpairs := pairs?_query other
  rw [h, pairs?_query set] at hpairs
  exact TextMap.ext (Option.some.inj hpairs).symm

end ParameterSet

end CloudCodec
