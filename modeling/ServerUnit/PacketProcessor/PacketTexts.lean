import ServerUnit.JsonText.RoundTrip

/-!
# The texts of packets (`packet_processor/packet_constructor.cpp`)

A packet of the server is a `json` value. Its text is one line, which is parsed to the packet and to
no other.
-/

namespace ServerUnit

open Lib

/-! ### Values -/

lemma TaskPriority.toNat_injective : Function.Injective TaskPriority.toNat := by
  intro a b h
  cases a <;> cases b <;> first | rfl | cases h

/-- The enumerator's number. -/
def ServerPacketCodes.toNat : ServerPacketCodes → ℕ
  | spHandshake => 1 <<< 0
  | spDataSent  => 1 <<< 1
  | spIntrAck   => 1 <<< 2
  | spFresAck   => 1 <<< 3
  | spErr       => 1 <<< 4
  | spIgnore    => 1 <<< 5

lemma ServerPacketCodes.toNat_injective : Function.Injective ServerPacketCodes.toNat := by
  intro a b h
  cases a <;> cases b <;> first | rfl | cases h

namespace Json

/-- `empty`. -/
def empty : Json → Bool
  | null       => true
  | arr l      => l.isEmpty
  | obj fields => fields.isEmpty
  | _          => false

end Json

/-- The members of `packet["body"]`, in the order of their assignments. -/
def PacketBody.members : PacketBody → List (String × Json)
  | empty => []
  | template instanceid algotype data =>
    [("instanceid", .str instanceid), ("algotype", .int algotype.toNat), ("data", .str data)]
  | userData tableid priority instancetype data =>
    [("tableid", .str tableid), ("priority", .int priority.toNat),
      ("instancetype", .str instancetype), ("data", .str data)]

/-- `packet["body"]` of a packet that is made. -/
def PacketBody.toJson (body : PacketBody) : Json := .obj (Json.insertMembers [] body.members)

/-- The argument of `create`. -/
def PacketBody.packet : PacketBody → List (String × Json)
  | empty => []
  | body  => Json.insertMember "body" body.toJson []

/-- What `PacketConstructor::create` returns. -/
def ServerPacket.toJson (p : ServerPacket) : Json :=
  let packet := Json.insertMember "head" (.int p.head.toNat) p.body.packet
  let packet := Json.insertMember "id" (.str p.id) packet
  .obj (if (Json.member packet "body").empty then Json.insertMember "body" (.obj []) packet
    else packet)

namespace PacketBody

lemma toJson_injective : Function.Injective toJson := by
  intro body body' h
  have hmember : ∀ key, Json.member (Json.insertMembers [] body.members) key =
      Json.member (Json.insertMembers [] body'.members) key := fun key => by
    rw [Json.obj.inj h]
  have hid := hmember "instanceid"
  have htable := hmember "tableid"
  have hpriority := hmember "priority"
  have htype := hmember "instancetype"
  have halgotype := hmember "algotype"
  have hdata := hmember "data"
  cases body <;> cases body' <;>
    simp_all [members, Json.insertMembers]
  · exact UInt8.toNat_inj.mp halgotype
  · exact TaskPriority.toNat_injective hpriority

end PacketBody

namespace ServerPacket

variable {p q : ServerPacket}

/-- The members of the value. -/
lemma exists_toJson (p : ServerPacket) : ∃ fields, p.toJson = .obj fields ∧
    Json.member fields "head" = .int p.head.toNat ∧ Json.member fields "id" = .str p.id ∧
      Json.member fields "body" = p.body.toJson := by
  obtain ⟨head, id, body⟩ := p
  refine ⟨_, rfl, ?_⟩
  cases body <;> simp [PacketBody.packet, PacketBody.toJson, PacketBody.members,
    Json.insertMembers, Json.empty]

lemma toJson_injective : Function.Injective toJson := by
  intro p q h
  obtain ⟨fields, hp, hhead, hid, hbody⟩ := p.exists_toJson
  obtain ⟨fields', hq, hhead', hid', hbody'⟩ := q.exists_toJson
  obtain rfl : fields = fields' := Json.obj.inj (hp.symm.trans (h.trans hq))
  have hcode := Json.int.inj (hhead.symm.trans hhead')
  obtain ⟨head, id, body⟩ := p
  obtain ⟨head', id', body'⟩ := q
  congr 1
  · exact ServerPacketCodes.toNat_injective (Int.ofNat_inj.mp hcode)
  · exact Json.str.inj (hid.symm.trans hid')
  · exact PacketBody.toJson_injective (hbody.symm.trans hbody')

end ServerPacket

/-! ### Texts -/

lemma PacketBody.plain_toJson (body : PacketBody) : body.toJson.Plain := by
  refine Json.plain_obj_nil.insertMembers ?_
  cases body with
  | empty => exact List.forall_mem_nil _
  | template instanceid algotype data =>
    have halgotype := algotype.toNat_lt
    simp [PacketBody.members, Json.plain_str, Json.plain_int (n := algotype.toNat) (by omega)]
  | userData tableid priority instancetype data =>
    have hpriority : priority.toNat < 2 ^ 64 := by cases priority <;> decide
    simp [PacketBody.members, Json.plain_str, Json.plain_int hpriority]

lemma ServerPacket.plain_toJson (p : ServerPacket) : p.toJson.Plain := by
  have hhead : p.head.toNat < 2 ^ 64 := by cases p.head <;> decide
  have hpacket : (Json.obj p.body.packet).Plain := by
    obtain ⟨head, id, body⟩ := p
    cases body with
    | empty => exact Json.plain_obj_nil
    | template | userData => exact Json.plain_obj_nil.insertMember (PacketBody.plain_toJson _)
  have hcreated : (Json.obj (Json.insertMember "id" (.str p.id)
      (Json.insertMember "head" (.int p.head.toNat) p.body.packet))).Plain :=
    (hpacket.insertMember (Json.plain_int hhead)).insertMember (Json.plain_str p.id)
  rw [ServerPacket.toJson]
  split_ifs
  · exact hcreated.insertMember Json.plain_obj_nil
  · exact hcreated

/-- The text is parsed to the packet, and to no other. -/
structure IsTextOf (text : List UInt8) (p : ServerPacket) : Prop where
  line : IsLine text
  parse : ∀ q : ServerPacket, Parser.parse text = .ok q.toJson ↔ q = p

lemma ServerPacket.exists_text (p : ServerPacket) :
    ∃ text, Serializer.dump p.toJson = .ok text ∧ IsTextOf text p := by
  obtain ⟨text, hdump, hreads⟩ := Json.exists_dump p.toJson p.plain_toJson.stored
    p.plain_toJson.noFloats
  have hparse := Parser.parse_of_reads p.plain_toJson.stored hreads
  refine ⟨text, hdump, hreads.line, fun q => ⟨fun h => ?_, fun h => h ▸ hparse⟩⟩
  rw [hparse, Except.ok.injEq] at h
  exact ServerPacket.toJson_injective h.symm

end ServerUnit
