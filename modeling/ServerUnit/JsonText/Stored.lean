import ServerUnit.JsonText.Grammar

/-!
# Values that a text can have

Whatever text the parser takes, its value is one that a `json` object can hold: the keys of each
object are in order, no key comes twice, and the numbers are in the ranges of their types.
-/

namespace ServerUnit

open Lib

namespace Json

/-! ### Members in order -/

/-- The keys of the members are in order, so that none comes twice. -/
def Ordered (fields : List (String × Json)) : Prop :=
  fields.Pairwise fun p q => keyBytes p.1 < keyBytes q.1

instance (fields : List (String × Json)) : Decidable (Ordered fields) :=
  inferInstanceAs (Decidable (fields.Pairwise _))

variable {fields : List (String × Json)} {key : String} {value : Json}

lemma keyBytes_injective : Function.Injective keyBytes := by
  intro a b h
  exact Utf8.bytes_injective (List.map_injective_iff.mpr (fun _ _ => UInt8.toNat_inj.mp) h)

lemma mem_insertMember {p : String × Json} (h : p ∈ insertMember key value fields) :
    p = (key, value) ∨ p ∈ fields := by
  induction fields with
  | nil => exact .inl (List.mem_singleton.mp h)
  | cons q fields ih =>
    rw [insertMember] at h
    split_ifs at h
    · rcases List.mem_cons.mp h with rfl | h
      · exact .inl rfl
      · exact .inr (List.mem_cons_of_mem _ h)
    · rcases List.mem_cons.mp h with rfl | h
      · exact .inl rfl
      · exact .inr h
    · rcases List.mem_cons.mp h with rfl | h
      · exact .inr List.mem_cons_self
      · exact (ih h).imp_right (List.mem_cons_of_mem _)

/-- A map stays in order. -/
lemma Ordered.insertMember (h : Ordered fields) : Ordered (insertMember key value fields) := by
  induction fields with
  | nil => exact List.pairwise_singleton _ _
  | cons q fields ih =>
    obtain ⟨hq, hfields⟩ := List.pairwise_cons.mp h
    rw [Json.insertMember]
    split_ifs with heq hlt
    · subst heq
      exact List.pairwise_cons.mpr ⟨hq, hfields⟩
    · refine List.pairwise_cons.mpr ⟨fun p hp => ?_, h⟩
      rcases List.mem_cons.mp hp with rfl | hp
      · exact hlt
      · exact hlt.trans (hq p hp)
    · refine List.pairwise_cons.mpr ⟨fun p hp => ?_, ih hfields⟩
      rcases mem_insertMember hp with rfl | hp
      · exact lt_of_le_of_ne (not_lt.mp hlt) fun h => heq (keyBytes_injective h.symm)
      · exact hq p hp

/-- A key after all others comes last. -/
lemma insertMember_of_lt (h : ∀ p ∈ fields, keyBytes p.1 < keyBytes key) :
    insertMember key value fields = fields ++ [(key, value)] := by
  induction fields with
  | nil => rfl
  | cons q fields ih =>
    obtain ⟨hq, hfields⟩ := List.forall_mem_cons.mp h
    have hne : key ≠ q.1 := by
      rintro rfl
      exact lt_irrefl _ hq
    rw [insertMember, if_neg hne, if_neg hq.asymm, ih hfields]
    rfl

/-- Members in order are kept as they are. -/
lemma insertMembers_append {members : List (String × Json)} (h : Ordered (members ++ fields)) :
    insertMembers members fields = members ++ fields := by
  induction fields generalizing members with
  | nil => exact (List.append_nil _).symm
  | cons p fields ih =>
    have hlast : insertMember p.1 p.2 members = members ++ [p] :=
      insertMember_of_lt fun q hq => (List.pairwise_append.mp h).2.2 q hq p List.mem_cons_self
    rw [List.append_cons] at h ⊢
    rw [← ih h, ← hlast]
    rfl

/-- What a lookup finds is the only member with the key. -/
lemma Ordered.nodup (h : Ordered fields) : (fields.map Prod.fst).Nodup := by
  refine List.pairwise_map.mpr (h.imp fun {p q} hlt heq => ?_)
  rw [heq] at hlt
  exact lt_irrefl _ hlt

/-! ### Lookups -/

variable {key' : String}

@[simp] lemma member_nil : member [] key = null := rfl

lemma member_cons (p : String × Json) :
    member (p :: fields) key' = if key' = p.1 then p.2 else member fields key' := by
  rw [member, member, List.lookup_cons]
  split_ifs with heq
  · rw [beq_iff_eq.mpr heq]
    rfl
  · rw [beq_false_of_ne heq]

@[simp] lemma insertMember_ne_nil : insertMember key value fields ≠ [] := by
  cases fields with
  | nil => exact List.cons_ne_nil _ _
  | cons p fields =>
    rw [insertMember]
    split_ifs <;> exact List.cons_ne_nil _ _

/-- What was assigned is found, and the other members stay. -/
@[simp] lemma member_insertMember : member (insertMember key value fields) key' =
    if key' = key then value else member fields key' := by
  induction fields with
  | nil => rw [insertMember, member_cons]
  | cons p fields ih =>
    rw [insertMember]
    split_ifs with heq hkey hlt hkey hkey
    · rw [member_cons, if_pos hkey]
    · rw [member_cons, member_cons, ← heq, if_neg hkey, if_neg hkey]
    · rw [member_cons, if_pos hkey]
    · rw [member_cons, if_neg hkey]
    · rw [member_cons, if_neg (hkey ▸ heq), ih, if_pos hkey]
    · rw [member_cons, member_cons, ih, if_neg hkey]

/-! ### Values -/

mutual

/-- The value can be held by a `json` object. -/
def Stored : Json → Prop
  | .null | .bool _ | .str _ => True
  | .int n => -2 ^ 63 ≤ n ∧ n < 2 ^ 64
  | .float q => FloatFormat.binary64.Number q ∧ Parser.isFinite q = true
  | .arr l => StoredAll l
  | .obj fields => Ordered fields ∧ StoredMembers fields

def StoredAll : List Json → Prop
  | [] => True
  | j :: l => j.Stored ∧ StoredAll l

def StoredMembers : List (String × Json) → Prop
  | [] => True
  | (_, j) :: fields => j.Stored ∧ StoredMembers fields

end

lemma stored_arr_iff {l : List Json} : (arr l).Stored ↔ ∀ j ∈ l, j.Stored := by
  have hall : StoredAll l ↔ ∀ j ∈ l, j.Stored := by
    induction l with
    | nil => exact iff_of_true trivial fun j hj => by cases hj
    | cons j l ih => rw [StoredAll, List.forall_mem_cons, ih]
  rw [Stored, hall]

lemma stored_obj_iff : (obj fields).Stored ↔ Ordered fields ∧ ∀ p ∈ fields, p.2.Stored := by
  have hall : StoredMembers fields ↔ ∀ p ∈ fields, p.2.Stored := by
    induction fields with
    | nil => exact iff_of_true trivial fun j hj => by cases hj
    | cons p fields ih => rw [StoredMembers, List.forall_mem_cons, ih]
  rw [Stored, hall]

lemma stored_obj_nil : (obj []).Stored := ⟨.nil, trivial⟩

lemma stored_insertMember (h : (obj fields).Stored) (hvalue : value.Stored) :
    (obj (insertMember key value fields)).Stored := by
  obtain ⟨hordered, hfields⟩ := stored_obj_iff.mp h
  refine stored_obj_iff.mpr ⟨hordered.insertMember, fun p hp => ?_⟩
  rcases mem_insertMember hp with rfl | hp
  · exact hvalue
  · exact hfields p hp

lemma stored_insertMembers {members : List (String × Json)} (h : (obj members).Stored)
    (hfields : ∀ p ∈ fields, p.2.Stored) : (obj (insertMembers members fields)).Stored := by
  induction fields generalizing members with
  | nil => exact h
  | cons p fields ih =>
    obtain ⟨hp, hfields⟩ := List.forall_mem_cons.mp hfields
    exact ih (stored_insertMember h hp) hfields

end Json

/-! ### Tokens -/

/-- The numbers of the token are in the ranges of their types. -/
def Token.InRange : Token → Prop
  | .value_unsigned n => n < 2 ^ 64
  | .value_integer n => -2 ^ 63 ≤ n ∧ n < 2 ^ 63
  | .value_float q => FloatFormat.binary64.Number q
  | _ => True

namespace Lexer

variable {input : List UInt8}

lemma inRange_ite {p : Prop} [Decidable p] {a b : Token × List UInt8} (ha : a.1.InRange)
    (hb : b.1.InRange) : (if p then a else b).1.InRange := by
  split_ifs
  · exact ha
  · exact hb

lemma inRange_strtod (token_buffer : List UInt8) :
    (Token.value_float (strtod token_buffer)).InRange :=
  FloatFormat.number_round ..

lemma inRange_numberToken (number_type : NumberType) (token_buffer : List UInt8) :
    (numberToken number_type token_buffer).InRange := by
  cases number_type with
  | unsigned =>
    rw [numberToken]
    split_ifs with h
    · exact h
    · exact inRange_strtod _
  | integer =>
    rw [numberToken]
    split_ifs with h
    · exact h
    · exact inRange_strtod _
  | float => exact inRange_strtod _

lemma inRange_scan_number (current : UInt8) : (scan_number current input).1.InRange := by
  rw [scan_number]
  split
  · trivial
  · exact inRange_numberToken _ _

lemma inRange_scan_quoted : (scan_quoted input).1.InRange := by
  rw [scan_quoted]
  split
  · trivial
  · split <;> trivial

lemma inRange_scan_literal {return_type : Token} (h : return_type.InRange)
    (literal_text : List Char) : (scan_literal literal_text return_type input).1.InRange := by
  rw [scan_literal]
  split_ifs
  · exact h
  · trivial

lemma inRange_scan_token (current : UInt8) : (scan_token current input).1.InRange := by
  have htrue : (Token.literal_true).InRange := trivial
  have hfalse : (Token.literal_false).InRange := trivial
  have hnull : (Token.literal_null).InRange := trivial
  exact inRange_ite trivial (inRange_ite trivial (inRange_ite trivial (inRange_ite trivial
    (inRange_ite trivial (inRange_ite trivial (inRange_ite (inRange_scan_literal htrue _)
      (inRange_ite (inRange_scan_literal hfalse _) (inRange_ite (inRange_scan_literal hnull _)
        (inRange_ite inRange_scan_quoted (inRange_ite (inRange_scan_number current)
          (inRange_ite trivial trivial)))))))))))

lemma inRange_scan : (scan input).1.InRange := by
  rw [scan]
  split
  · trivial
  · exact inRange_scan_token _

lemma inRange_tokens : ∀ t ∈ tokens input, t.InRange := by
  fun_induction tokens input with
  | case1 => exact List.forall_mem_singleton.mpr trivial
  | case2 => exact List.forall_mem_singleton.mpr trivial
  | case3 input hend herror ih => exact List.forall_mem_cons.mpr ⟨inRange_scan, ih⟩

end Lexer

/-! ### The parser -/

namespace Parser

lemma stored_scalar {token : Token} {value : Json} (htoken : token.InRange)
    (h : scalar token = some value) : value.Stored := by
  cases token
  case value_unsigned n =>
    cases h
    have hn : n < 2 ^ 64 := htoken
    rw [Json.Stored]
    omega
  case value_integer n =>
    cases h
    have hn : -2 ^ 63 ≤ n ∧ n < 2 ^ 63 := htoken
    rw [Json.Stored]
    omega
  case value_float q =>
    rw [scalar] at h
    split_ifs at h with hfinite
    cases h
    exact ⟨htoken, hfinite⟩
  all_goals
    cases h
    try trivial

mutual

/-- A value of tokens in range is stored. -/
lemma Value.stored {tokens rest : List Token} {value : Json} (h : Value tokens value rest)
    (hrange : ∀ t ∈ tokens, t.InRange) : value.Stored ∧ ∀ t ∈ rest, t.InRange := by
  match h with
  | .scalar token value rest h =>
    obtain ⟨htoken, hrest⟩ := List.forall_mem_cons.mp hrange
    exact ⟨stored_scalar htoken h, hrest⟩
  | .emptyArray rest =>
    exact ⟨Json.stored_arr_iff.mpr (fun j hj => by cases hj),
      fun t ht => hrange t (.tail _ (.tail _ ht))⟩
  | .array tokens l rest h =>
    obtain ⟨hl, hrest⟩ := h.stored (List.forall_mem_cons.mp hrange).2
    exact ⟨Json.stored_arr_iff.mpr hl, hrest⟩
  | .emptyObject rest =>
    exact ⟨Json.stored_obj_nil, fun t ht => hrange t (.tail _ (.tail _ ht))⟩
  | .object tokens fields rest h =>
    obtain ⟨hfields, hrest⟩ := h.stored (List.forall_mem_cons.mp hrange).2
    exact ⟨Json.stored_insertMembers Json.stored_obj_nil hfields, hrest⟩

lemma Elements.stored {tokens rest : List Token} {l : List Json} (h : Elements tokens l rest)
    (hrange : ∀ t ∈ tokens, t.InRange) : (∀ j ∈ l, j.Stored) ∧ ∀ t ∈ rest, t.InRange := by
  match h with
  | .last tokens j rest h =>
    obtain ⟨hj, hrest⟩ := h.stored hrange
    exact ⟨List.forall_mem_singleton.mpr hj, (List.forall_mem_cons.mp hrest).2⟩
  | .cons tokens tokens' j l rest h h' =>
    obtain ⟨hj, htokens'⟩ := h.stored hrange
    obtain ⟨hl, hrest⟩ := h'.stored (List.forall_mem_cons.mp htokens').2
    exact ⟨List.forall_mem_cons.mpr ⟨hj, hl⟩, hrest⟩

lemma Members.stored {tokens rest : List Token} {fields : List (String × Json)}
    (h : Members tokens fields rest) (hrange : ∀ t ∈ tokens, t.InRange) :
    (∀ p ∈ fields, p.2.Stored) ∧ ∀ t ∈ rest, t.InRange := by
  match h with
  | .last key tokens j rest h =>
    obtain ⟨hj, hrest⟩ := h.stored fun t ht => hrange t (.tail _ (.tail _ ht))
    exact ⟨List.forall_mem_singleton.mpr hj, (List.forall_mem_cons.mp hrest).2⟩
  | .cons key tokens tokens' j fields rest h h' =>
    obtain ⟨hj, htokens'⟩ := h.stored fun t ht => hrange t (.tail _ (.tail _ ht))
    obtain ⟨hfields, hrest⟩ := h'.stored (List.forall_mem_cons.mp htokens').2
    exact ⟨List.forall_mem_cons.mpr ⟨hj, hfields⟩, hrest⟩

end

/-- The value of a text is one that a `json` object can hold. -/
lemma stored_of_parse {text : List UInt8} {j : Json} (h : parse text = .ok j) : j.Stored := by
  rw [parse] at h
  split at h
  · cases h
  · obtain ⟨rest, hvalue⟩ := parse_value_eq_ok_iff.mp h
    exact (hvalue.stored Lexer.inRange_tokens).1

end Parser

end ServerUnit
