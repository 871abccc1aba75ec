import Wallclock.Library.Paging
import Wallclock.Theory.Handles
import Wallclock.Theory.Reads
import Wallclock.Theory.Responses

/-!
# Discovery

A client knows nothing about the database at first. It asks for the services of
a type, for the attributes of a type, or for the types of all attributes, from
handle 1 to the last one, and repeats the request behind the last handle that it
was told until there is an error. A response has one length for all of its
entries, and as many as the transmission unit has room for. The handlers look
for all that is left each time, and throw away what does not fit.

In a database in order the client gets everything that is there, once and in
order. This holds for any transmission unit, any mixture of short and long UUIDs
and any contents, and in particular in every state that the server gets to.

The client is not part of the program. It is what `Wallclock.Library.Paging`
says about a sequence of requests, and it takes the responses apart by their
format only. Its requests leave the connection as it was (`discovery_reaches`), so
that they all ask the same one.

## Main definitions

* `discoveryRequest`, `answerUnits`: A request, and the entries of its answer.
* `readServices`, `readAttributes`, `readInformation`: The three requests.
* `Service.unit`, `Attribute.infoUnit`, `Attribute.typeUnit`, `infoFormat`: The
  entries as the server writes them.
* `GattDb.servicesOf`, `GattDb.activeAttributes`, `GattDb.attributesOf`: What
  there is to find.
* `Attribute.Plain`, `Attribute.Short`: A value that can be read and sent.

## Theorems

* `length_toLe`, `ofLe_toLe`: UUIDs in a request.
* `getLe16_leBytes`, `discoveryRequest_fields`, `discoveryRequest_length`: The
  fields of a request.
* `answerUnits_fill`, `answerUnits_errorRsp`, `page_of_fill`: What a client reads in
  an answer.
* `length_unit`, `length_infoUnit`, `length_typeUnit`, `unit_fields`,
  `infoUnit_fields`, `typeUnit_fields`: Entries are read as they were written.
* `readByGroupTypeGo_prefix`, `readByGroupType_filter`, `findInformation_eq`,
  `readByType_eq`, `inRange_eq`: What the database finds in a range up to the
  last handle.
* `readByGrpTypeGo_eq`, `encodeReadByGrpTypeRsp_eq`, `findInfoGo_eq`,
  `encodeFindInfoRsp_eq`, `processReadByType_fill`, `processReadByType_begin`: The
  loops fill a buffer.
* `Attribute.Plain.read`: A value that can be read.
* `handleNotify_services`, `handleNotify_information`, `readByTypeCb_attributes`,
  `handleNotify_attributes`: The handlers on a request.
* `processReadByType_unchanged`, `attributes_unchanged`, `services_unchanged`,
  `information_unchanged`, `reaches_of_unchanged`, `discovery_reaches`: The requests
  leave the connection as it was.
* `paged_services`, `paged_information`, `paged_attributes`: An answer has some of
  the first entries.
* `mem_activeAttributes`, `handle_pos`, `activeAttributes_order`, `records_order`:
  The entries are in order.
* `of_mapAttributes`, `layout_sound`, `sound_of_ready`,
  `activeAttributes_of_ready`, `connect_found`: The database of the server.
* `services_discovered`, `services_discovered_connect`, `information_discovered`,
  `information_discovered_connect`, `attributes_discovered`,
  `attributes_discovered_connect`: A client finds everything.
* `table_discovered`, `table_discovered_connect`: It does so in every state of the
  server.
-/

namespace Wallclock

open ByteCodec GattDb StepMachine

namespace Uuid

theorem length_toLe (u : Uuid) : u.toLe.length = 2 ∨ u.toLe.length = 16 := by
  cases u with
  | uuid16 value => exact Or.inl (length_leBytes 2 _)
  | uuid128 value => exact Or.inr (length_leBytes 16 _)

theorem ofLe_toLe (u : Uuid) : ofLe u.toLe = u := by
  cases u with
  | uuid16 value =>
      have hvalue : leNat (leBytes 2 value.toNat) = value.toNat := leNat_leBytes_of_lt value.isLt
      rw [toLe, ofLe, if_pos (length_leBytes 2 _), hvalue, BitVec.ofNat_toNat, BitVec.setWidth_eq]
  | uuid128 value =>
      have hvalue : leNat (leBytes 16 value.toNat) = value.toNat :=
        leNat_leBytes_of_lt value.isLt
      have hlength : (leBytes 16 value.toNat).length ≠ 2 := by
        rw [length_leBytes]
        decide
      rw [toLe, ofLe, if_neg hlength, hvalue, BitVec.ofNat_toNat, BitVec.setWidth_eq]

end Uuid

section Client

/-- A request for what is between a handle and the last one. -/
def discoveryRequest (env : Env) (opcode : Opcode) (start : ℕ) (type : Option Uuid) : Exchange :=
  { env with
    opcode
    pdu := leBytes 2 start ++ leBytes 2 65535 ++ (type.map Uuid.toLe).getD []
    size := by
      have htype : ((type.map Uuid.toLe).getD []).length ≤ 16 := by
        rcases type with _ | u
        · exact Nat.zero_le 16
        · rw [Option.map_some, Option.getD_some]
          rcases u.length_toLe with hlength | hlength <;> omega
      simp only [List.length_append, length_leBytes]
      omega }

/-- The units of an answer. The first byte says how long they are. -/
def answerUnits (opcode : ℕ) (size : ℕ → ℕ) : List Event → Option (List (List UInt8))
  | [.queued rsp pdu] =>
    if rsp = opcode then some (units (size (pdu.headD 0).toNat) (pdu.drop 1)) else none
  | _ => none

/-- The handles and the values of the services that begin at a handle or behind it. -/
def readServices (env : Env) (c : Connection) (type : Uuid) (start : ℕ) :
    Option (List (ℕ × ℕ × List UInt8)) :=
  (answerUnits btAttOpReadByGrpTypeRsp id
    (handleNotify c (discoveryRequest env .readByGrpTypeReq start type)).1).map fun l =>
      l.map fun u => (getLe16 u, getLe16 (u.drop 2), u.drop 4)

/-- The handles and the values of the attributes of a type. -/
def readAttributes (env : Env) (c : Connection) (type : Uuid) (start : ℕ) :
    Option (List (ℕ × List UInt8)) :=
  (answerUnits btAttOpReadByTypeRsp id
    (handleNotify c (discoveryRequest env .readByTypeReq start type)).1).map fun l =>
      l.map fun u => (getLe16 u, u.drop 2)

/-- The handles and the types of the attributes. -/
def readInformation (env : Env) (c : Connection) (start : ℕ) : Option (List (ℕ × List UInt8)) :=
  (answerUnits btAttOpFindInfoRsp (fun format => if format = 1 then 4 else 18)
    (handleNotify c (discoveryRequest env .findInfoReq start none)).1).map fun l =>
      l.map fun u => (getLe16 u, u.drop 2)

end Client

section Answers

variable {c : Connection}

theorem getLe16_leBytes {n : ℕ} (h : n ≤ 65535) (rest : List UInt8) :
    getLe16 (leBytes 2 n ++ rest) = n := by
  rw [getLe16, List.take_left' (length_leBytes 2 n)]
  exact leNat_leBytes_of_lt (by omega)

/-- The fields of a request. -/
theorem discoveryRequest_fields (env : Env) (opcode : Opcode) {start : ℕ} (h : start ≤ 65535)
    (type : Option Uuid) :
    getLe16 (discoveryRequest env opcode start type).pdu = start ∧
      getLe16 ((discoveryRequest env opcode start type).pdu.drop 2) = 65535 ∧
      (discoveryRequest env opcode start type).pdu.drop 4 = (type.map Uuid.toLe).getD [] := by
  have hpdu : (discoveryRequest env opcode start type).pdu =
      leBytes 2 start ++ (leBytes 2 65535 ++ (type.map Uuid.toLe).getD []) :=
    List.append_assoc _ _ _
  have hdrop : (discoveryRequest env opcode start type).pdu.drop 2 =
      leBytes 2 65535 ++ (type.map Uuid.toLe).getD [] := by
    rw [hpdu, List.drop_left' (length_leBytes 2 start)]
  refine ⟨?_, ?_, ?_⟩
  · rw [hpdu]
    exact getLe16_leBytes h _
  · rw [hdrop]
    exact getLe16_leBytes (le_refl _) _
  · rw [show 4 = 2 + 2 from rfl, ← List.drop_drop, hdrop, List.drop_left' (length_leBytes 2 _)]

theorem discoveryRequest_length (env : Env) (opcode : Opcode) (start : ℕ) (type : Uuid) :
    (discoveryRequest env opcode start type).pdu.length = 6 ∨
      (discoveryRequest env opcode start type).pdu.length = 20 := by
  simp only [discoveryRequest, List.length_append, length_leBytes, Option.map_some,
    Option.getD_some]
  rcases type.length_toLe with hlength | hlength <;> omega

/-- A response that was filled with records has some of the first ones. -/
theorem answerUnits_fill {α : Type*} {enc : α → List UInt8} {belongs : α → Bool} {n rsp : ℕ}
    {size : ℕ → ℕ} {a : α} {l : List α} {header : UInt8} (hn : 0 < n)
    (henc : ∀ b ∈ a :: l, belongs b → (enc b).length = n) (hfirst : belongs a)
    (hsize : size header.toNat = n) (hmtu : n + 2 ≤ c.attMtu) :
    ∃ p, p ≠ [] ∧ p <+: a :: l ∧
      answerUnits rsp size (btAttSend c rsp (fill enc belongs (c.attMtu - 1) [header] (a :: l))) =
        some (p.map enc) := by
  have hroom : 1 + n ≤ c.attMtu - 1 := by omega
  obtain ⟨p, hne, hfront, hunits⟩ : ∃ p, p ≠ [] ∧ p <+: a :: l ∧
      units n ((fill enc belongs (c.attMtu - 1) [header] (a :: l)).drop 1) = p.map enc :=
    exists_fill hn henc hfirst hroom
  refine ⟨p, hne, hfront, ?_⟩
  have hlength : (fill enc belongs (c.attMtu - 1) [header] (a :: l)).length ≤ c.attMtu - 1 :=
    length_fill_le (by rw [List.length_singleton]; omega) (a :: l)
  have hhead : (fill enc belongs (c.attMtu - 1) [header] (a :: l)).headD 0 = header := by
    rw [fill_eq hn henc]
    rfl
  rw [send_eq rsp (by omega), answerUnits, if_pos rfl, hhead, hsize, hunits]

/-- An error is no answer. -/
theorem answerUnits_errorRsp {rsp : ℕ} (size : ℕ → ℕ) (h : rsp ≠ btAttOpErrorRsp)
    (opcode handle err : ℕ) :
    answerUnits rsp size (btAttSendErrorRsp c opcode handle err) = none := by
  unfold btAttSendErrorRsp btAttSend
  split
  · rfl
  · exact if_neg h.symm

/-- An answer with some of the first items that are left, or an error if there are
    none, is a page of records. -/
theorem page_of_fill {α β : Type*} (c : Connection) (enc : α → List UInt8)
    {dec : List UInt8 → β} {f : α → β} {rsp : ℕ} {size : ℕ → ℕ} {events : List Event}
    {items : List α} (hrsp : rsp ≠ btAttOpErrorRsp)
    (hdec : ∀ a ∈ items, dec (enc a) = f a)
    (hnil : items = [] → ∃ opcode handle err, events = btAttSendErrorRsp c opcode handle err)
    (hcons : ∀ a l, items = a :: l → ∃ q belongs n header, a :: q <+: items ∧ 0 < n ∧
      (∀ b ∈ a :: q, belongs b → (enc b).length = n) ∧ belongs a ∧
      size (UInt8.toNat header) = n ∧ n + 2 ≤ c.attMtu ∧
      events = btAttSend c rsp (fill enc belongs (c.attMtu - 1) [header] (a :: q))) :
    (items = [] ∧ (answerUnits rsp size events).map (List.map dec) = none) ∨
      ∃ p, p ≠ [] ∧ p <+: items ∧
        (answerUnits rsp size events).map (List.map dec) = some (p.map f) := by
  cases items with
  | nil =>
      rcases hnil rfl with ⟨opcode, handle, err, heq⟩
      left
      rw [heq, answerUnits_errorRsp size hrsp]
      exact ⟨rfl, rfl⟩
  | cons a l =>
      rcases hcons a l rfl with ⟨q, belongs, n, header, hq, hn, henc, hfirst, hsize, hmtu, heq⟩
      obtain ⟨p, hne, hp, hunits⟩ := @answerUnits_fill c α enc belongs n rsp size a q header hn henc
        hfirst hsize hmtu
      right
      refine ⟨p, hne, hp.trans hq, ?_⟩
      rw [heq, hunits, Option.map_some, List.map_map]
      congr 1
      exact List.map_congr_left fun b hb => hdec b (hq.subset (hp.subset hb))

end Answers

section Services

variable {c : Connection} {env : Env}

/-- A service in a response. -/
def Service.unit (s : Service) : List UInt8 :=
  leBytes 2 s.declaration.handle ++ leBytes 2 s.endHandle ++ s.declaration.value

theorem Service.length_unit (s : Service) : s.unit.length = s.declaration.value.length + 4 := by
  simp only [unit, List.length_append, length_leBytes]
  omega

theorem Service.unit_fields (s : Service) (hstart : s.declaration.handle ≤ 65535)
    (hstop : s.endHandle ≤ 65535) : getLe16 s.unit = s.declaration.handle ∧
      getLe16 (s.unit.drop 2) = s.endHandle ∧ s.unit.drop 4 = s.declaration.value := by
  have hunit : s.unit = leBytes 2 s.declaration.handle ++
      (leBytes 2 s.endHandle ++ s.declaration.value) := List.append_assoc _ _ _
  have hdrop : s.unit.drop 2 = leBytes 2 s.endHandle ++ s.declaration.value := by
    rw [hunit, List.drop_left' (length_leBytes 2 _)]
  refine ⟨?_, ?_, ?_⟩
  · rw [hunit]
    exact getLe16_leBytes hstart _
  · rw [hdrop]
    exact getLe16_leBytes hstop _
  · rw [show 4 = 2 + 2 from rfl, ← List.drop_drop, hdrop, List.drop_left' (length_leBytes 2 _)]

theorem readByGroupTypeGo_prefix (uuidSize : ℕ) (q : List Service) :
    gattDbReadByGroupType.go uuidSize q <+: q := by
  induction q generalizing uuidSize with
  | nil => exact List.prefix_rfl
  | cons s q ih =>
      unfold gattDbReadByGroupType.go
      split
      · exact List.nil_prefix
      · exact (List.prefix_cons_inj s).mpr (ih _)

/-- The first service sets the length of the units, and those that have another
    one are left out. -/
theorem readByGrpTypeGo_eq {mtu n : ℕ} {q : List Service} {pdu : List UInt8}
    (hne : ∀ s ∈ q, s.declaration.value.length ≠ 0)
    (hfirst : pdu.length > 1 ∨ ∀ s ∈ q.head?, s.declaration.value.length = n) :
    encodeReadByGrpTypeRsp.go mtu n pdu q =
      some (fill Service.unit (fun s => s.declaration.value.length = n) (mtu - 1) pdu q) := by
  induction q generalizing pdu with
  | nil => rfl
  | cons s q ih =>
      unfold encodeReadByGrpTypeRsp.go fill
      simp only
      rw [if_neg (hne s List.mem_cons_self)]
      by_cases hlength : s.declaration.value.length = n
      · rw [if_neg (fun h => h.2 hlength), s.length_unit, hlength]
        by_cases hroom : pdu.length + n + 4 > mtu - 1
        · rw [if_pos hroom, if_neg (by omega)]
        · have hunit : pdu ++ leBytes 2 s.declaration.handle ++ leBytes 2 s.endHandle ++
              s.declaration.value.take n = pdu ++ s.unit := by
            rw [← hlength, List.take_length]
            simp only [Service.unit, List.append_assoc]
          rw [if_neg hroom, if_pos ⟨decide_eq_true rfl, by omega⟩, hunit]
          refine ih (fun t ht => hne t (List.mem_cons_of_mem s ht)) (Or.inl ?_)
          rw [List.length_append, s.length_unit]
          omega
      · rcases hfirst with hlong | hhead
        · rw [if_pos ⟨hlong, hlength⟩, if_neg (fun h => hlength (of_decide_eq_true h.1))]
        · exact absurd (hhead s rfl) hlength

/-- The services of a type, which a client can find. -/
def GattDb.servicesOf (db : GattDb) (type : Uuid) : List Service :=
  db.services.filter fun s => s.active ∧ type.cmp s.declaration.uuid

/-- In a database in order a range up to the last handle is bounded by its start only. -/
theorem readByGroupType_filter {db : GattDb} (h : db.Sound) (type : Uuid) (start : ℕ) :
    gattDbReadByGroupType db start 65535 type =
      gattDbReadByGroupType.go 0
        ((db.servicesOf type).filter fun s => start ≤ s.declaration.handle) := by
  unfold gattDbReadByGroupType GattDb.servicesOf
  rw [List.filter_filter]
  congr 1
  refine List.filter_congr fun s hs => ?_
  have hvalid : s.declaration.handle ≤ s.endHandle := h.services.valid s hs
  have hstop := h.stop s hs
  rw [Bool.eq_iff_iff, Bool.and_eq_true, decide_eq_true_eq, decide_eq_true_eq, decide_eq_true_eq]
  constructor
  · rintro ⟨hactive, htype, _, hin⟩
    exact ⟨by omega, hactive, htype⟩
  · rintro ⟨hin, hactive, htype⟩
    exact ⟨hactive, htype, by omega, by omega⟩

/-- The response begins with the first service that is left. -/
theorem encodeReadByGrpTypeRsp_eq {mtu : ℕ} (hmtu : 23 ≤ mtu) {s : Service} {q : List Service}
    (huuid : ∀ t ∈ s :: q, t.declaration.value.length = 2 ∨ t.declaration.value.length = 16) :
    encodeReadByGrpTypeRsp mtu (s :: q) =
      some (fill Service.unit
        (fun t => t.declaration.value.length = s.declaration.value.length) (mtu - 1)
        [UInt8.ofNat (s.declaration.value.length + 4)] (s :: q)) := by
  have hlength := huuid s List.mem_cons_self
  -- Neither bound cuts a UUID off.
  have hmin : min (min (mtu - 6) 251) s.declaration.value.length =
      s.declaration.value.length := by omega
  rw [encodeReadByGrpTypeRsp, List.head?_cons]
  simp only [hmin]
  refine readByGrpTypeGo_eq (fun t ht => ?_) (Or.inr fun t ht => ?_)
  · have ht' := huuid t ht
    omega
  · cases ht
    rfl

/-- The part of the handler that looks for services. -/
theorem handleNotify_services (h : c.db.Sound) {type : Uuid}
    (htype : type.cmp gattPrimSvcUuid ∨ type.cmp gattSndSvcUuid) {start : ℕ} (hfirst : 1 ≤ start)
    (hlast : start ≤ 65535) :
    (handleNotify c (discoveryRequest env .readByGrpTypeReq start type)).1 =
      let q := gattDbReadByGroupType.go 0
        ((c.db.servicesOf type).filter fun s => start ≤ s.declaration.handle)
      if q.isEmpty then
        btAttSendErrorRsp c btAttOpReadByGrpTypeReq start btAttErrorAttributeNotFound
      else match encodeReadByGrpTypeRsp c.attMtu q with
        | none => btAttSendErrorRsp c btAttOpReadByGrpTypeReq start btAttErrorUnlikely
        | some rsp => btAttSend c btAttOpReadByGrpTypeRsp rsp := by
  rcases discoveryRequest_fields env .readByGrpTypeReq hlast (some type) with ⟨hstart, hstop, hto⟩
  have hlen := discoveryRequest_length env .readByGrpTypeReq start type
  have hgroup : ¬(¬type.cmp gattPrimSvcUuid ∧ ¬type.cmp gattSndSvcUuid) := fun hnot =>
    htype.elim hnot.1 hnot.2
  show readByGrpTypeCb c btAttOpReadByGrpTypeReq _ = _
  unfold readByGrpTypeCb
  simp only [hstart, hstop, hto, Option.map_some, Option.getD_some, Uuid.ofLe_toLe,
    if_neg (show ¬(start = 0 ∨ 65535 = 0) by omega), if_neg (Nat.not_lt.mpr hlast), if_neg hgroup]
  -- The checks of the request pass, and what the database finds is left.
  have hq := readByGroupType_filter h type start
  rw [if_neg (by omega)]
  generalize gattDbReadByGroupType c.db start 65535 type = q at hq ⊢
  subst hq
  rfl

theorem paged_services (h : c.db.Sound) {type : Uuid}
    (htype : type.cmp gattPrimSvcUuid ∨ type.cmp gattSndSvcUuid) (hmtu : 23 ≤ c.attMtu)
    (huuid : ∀ s ∈ c.db.servicesOf type,
      s.declaration.value.length = 2 ∨ s.declaration.value.length = 16) :
    Paged (readServices env c type) Prod.fst 65535 ((c.db.servicesOf type).map fun s =>
      (s.declaration.handle, s.endHandle, s.declaration.value)) := by
  refine paged_map fun start hfirst hlast => ?_
  unfold readServices
  rw [handleNotify_services h htype hfirst hlast]
  obtain ⟨items, hitems⟩ : ∃ items, ((c.db.servicesOf type).filter fun s =>
    start ≤ s.declaration.handle) = items := ⟨_, rfl⟩
  simp only [hitems]
  have hmem (s : Service) (hs : s ∈ items) : s ∈ c.db.services ∧
      (s.declaration.value.length = 2 ∨ s.declaration.value.length = 16) := by
    rw [← hitems] at hs
    have hof := (List.mem_filter.mp hs).1
    exact ⟨(List.mem_filter.mp hof).1, huuid s hof⟩
  refine page_of_fill c Service.unit (by decide) (fun s hs => ?_) (fun hnil => ?_)
    fun s l hcons => ?_
  · have hs' := (hmem s hs).1
    have hvalid : s.declaration.handle ≤ s.endHandle := h.services.valid s hs'
    have hstop := h.stop s hs'
    rcases s.unit_fields (by omega) hstop with ⟨hhandle, hend, hvalue⟩
    show (getLe16 s.unit, getLe16 (s.unit.drop 2), s.unit.drop 4) = _
    rw [hhandle, hend, hvalue]
  · rw [hnil]
    exact ⟨_, _, _, rfl⟩
  · subst hcons
    -- The database stops at the first service whose UUID has another length.
    have hfront : gattDbReadByGroupType.go 0 (s :: l) <+: s :: l :=
      readByGroupTypeGo_prefix 0 (s :: l)
    have hgo : gattDbReadByGroupType.go 0 (s :: l) =
        s :: gattDbReadByGroupType.go s.declaration.value.length l := rfl
    rw [hgo] at hfront ⊢
    generalize gattDbReadByGroupType.go s.declaration.value.length l = q at hfront
    have hlength := (hmem s List.mem_cons_self).2
    refine ⟨q, fun t => t.declaration.value.length = s.declaration.value.length,
      s.declaration.value.length + 4, UInt8.ofNat (s.declaration.value.length + 4), hfront,
      by omega, fun t _ ht => ?_, decide_eq_true rfl, ?_, by omega, ?_⟩
    · rw [t.length_unit, of_decide_eq_true ht]
    · rw [id, UInt8.toNat_ofNat']
      omega
    · rw [encodeReadByGrpTypeRsp_eq hmtu fun t ht => (hmem t (hfront.subset ht)).2]
      rfl

end Services

section Attributes

variable {c : Connection} {env : Env}

/-- The attributes that a client can find. -/
def GattDb.activeAttributes (db : GattDb) : List Attribute :=
  (db.services.filter (·.active)).flatMap Service.attributes

/-- Those of a type. -/
def GattDb.attributesOf (db : GattDb) (type : Uuid) : List Attribute :=
  db.activeAttributes.filter fun a => type.cmp a.uuid

theorem GattDb.mem_activeAttributes {db : GattDb} {a : Attribute} (ha : a ∈ db.activeAttributes) :
    ∃ s ∈ db.services, a ∈ s.attributes := by
  rcases List.mem_flatMap.mp ha with ⟨s, hs, hmem⟩
  exact ⟨s, (List.mem_filter.mp hs).1, hmem⟩

theorem GattDb.Sound.handle_pos {db : GattDb} (h : db.Sound) {a : Attribute}
    (ha : a ∈ db.activeAttributes) : 1 ≤ a.handle ∧ a.handle ≤ 65535 := by
  rcases mem_activeAttributes ha with ⟨s, hs, hmem⟩
  exact ⟨(h.start s hs).trans ((h.sound s hs).declaration_le a hmem),
    ((h.sound s hs).within a hmem).trans (h.stop s hs)⟩

theorem GattDb.Sound.activeAttributes_order {db : GattDb} (h : db.Sound) :
    InOrder Attribute.handle Attribute.handle db.activeAttributes := by
  -- The ranges of the services that are left are in order, and hold the handles.
  have hactive := h.services.sublist (List.filter_sublist (p := fun s : Service => s.active))
  refine ⟨fun _ _ => le_refl _, List.pairwise_map.mp ?_⟩
  rw [activeAttributes, List.map_flatMap]
  refine hactive.keys (fun s hs => (h.sound s (List.mem_filter.mp hs).1).rising)
    fun s hs k hk => ?_
  have hsound := h.sound s (List.mem_filter.mp hs).1
  rcases List.mem_map.mp hk with ⟨a, ha, rfl⟩
  exact ⟨hsound.declaration_le a ha, hsound.within a ha⟩

theorem inRange_eq {s : Service} (h : ∀ a ∈ s.attributes, a.handle ≤ 65535) (start : ℕ) :
    s.inRange start 65535 = s.attributes.filter fun a => start ≤ a.handle := by
  have hfilter : (s.attributes.filter fun a => ¬a.handle < start) =
      s.attributes.filter fun a => start ≤ a.handle := by
    refine List.filter_congr fun a _ => ?_
    rw [decide_eq_decide]
    omega
  unfold Service.inRange
  rw [hfilter]
  refine List.takeWhile_eq_self_iff.mpr fun a ha => ?_
  have hle := h a (List.mem_filter.mp ha).1
  exact decide_eq_true (by omega)

theorem findInformation_eq {db : GattDb} (h : db.Sound) (start : ℕ) :
    gattDbFindInformation db start 65535 =
      db.activeAttributes.filter fun a => start ≤ a.handle := by
  have hrange (s : Service) (hs : s ∈ db.services) : s.inRange start 65535 =
      s.attributes.filter fun a => start ≤ a.handle :=
    inRange_eq (fun a ha => ((h.sound s hs).within a ha).trans (h.stop s hs)) start
  have hsplit : (db.services.filter fun s => s.active ∧ ¬s.endHandle < start) =
      (db.services.filter (·.active)).filter fun s => ¬s.endHandle < start := by
    rw [List.filter_filter]
    refine List.filter_congr fun s _ => ?_
    rw [Bool.eq_iff_iff, Bool.and_eq_true, decide_eq_true_eq, decide_eq_true_eq, and_comm]
  unfold gattDbFindInformation GattDb.activeAttributes
  rw [hsplit, flatMap_filter_of_nil, List.filter_flatMap]
  · exact List.flatMap_congr fun s hs => hrange s (List.mem_filter.mp hs).1
  · -- A service that ends before the range has no attribute in it.
    intro s hs hend
    have hmem := (List.mem_filter.mp hs).1
    rw [decide_eq_true_eq, not_not] at hend
    rw [hrange s hmem]
    refine List.filter_eq_nil_iff.mpr fun a ha => ?_
    have hle := (h.sound s hmem).within a ha
    rw [decide_eq_true_eq]
    omega

theorem readByType_eq {db : GattDb} (h : db.Sound) (type : Uuid) (start : ℕ) :
    gattDbReadByType db start 65535 type =
      (db.attributesOf type).filter fun a => start ≤ a.handle := by
  have hswap : ((db.attributesOf type).filter fun a => start ≤ a.handle) =
      (db.activeAttributes.filter fun a => start ≤ a.handle).filter fun a => type.cmp a.uuid := by
    rw [GattDb.attributesOf, List.filter_comm]
  rw [hswap, GattDb.activeAttributes, List.filter_flatMap, List.filter_flatMap]
  unfold gattDbReadByType
  refine List.flatMap_congr fun s hs => ?_
  have hmem := (List.mem_filter.mp hs).1
  rw [inRange_eq (fun a ha => ((h.sound s hmem).within a ha).trans (h.stop s hmem)) start]

/-- An attribute in a response to a Find Information Request. -/
def Attribute.infoUnit (a : Attribute) : List UInt8 := leBytes 2 a.handle ++ a.uuid.toLe

/-- An attribute in a response to a Read By Type Request. -/
def Attribute.typeUnit (a : Attribute) : List UInt8 := leBytes 2 a.handle ++ a.value

theorem Attribute.length_infoUnit (a : Attribute) :
    a.infoUnit.length = a.uuid.toLe.length + 2 := by
  rw [infoUnit, List.length_append, length_leBytes, Nat.add_comm]

theorem Attribute.length_typeUnit (a : Attribute) : a.typeUnit.length = a.value.length + 2 := by
  rw [typeUnit, List.length_append, length_leBytes, Nat.add_comm]

theorem findInfoGo_eq {mtu n : ℕ} {q : List Attribute} {pdu : List UInt8}
    (hne : ∀ a ∈ q, a.handle ≠ 0) :
    encodeFindInfoRsp.go mtu n pdu q =
      some (fill Attribute.infoUnit (fun a => a.uuid.toLe.length = n) (mtu - 1) pdu q) := by
  induction q generalizing pdu with
  | nil => rfl
  | cons a q ih =>
      unfold encodeFindInfoRsp.go fill
      rw [if_neg (hne a List.mem_cons_self), a.length_infoUnit]
      by_cases hlength : a.uuid.toLe.length = n
      · rw [if_neg (fun h => h hlength), hlength]
        -- The loop stops at the first attribute that has no room.
        by_cases hroom : pdu.length + n + 2 > mtu - 1
        · rw [if_pos hroom, if_neg (by omega)]
        · rw [if_neg hroom, if_pos ⟨decide_eq_true rfl, by omega⟩, List.append_assoc]
          exact ih fun b hb => hne b (List.mem_cons_of_mem a hb)
      · rw [if_pos hlength, if_neg (fun h => hlength (of_decide_eq_true h.1))]

theorem Attribute.infoUnit_fields (a : Attribute) (h : a.handle ≤ 65535) :
    getLe16 a.infoUnit = a.handle ∧ a.infoUnit.drop 2 = a.uuid.toLe :=
  ⟨getLe16_leBytes h _, List.drop_left' (length_leBytes 2 _)⟩

theorem Attribute.typeUnit_fields (a : Attribute) (h : a.handle ≤ 65535) :
    getLe16 a.typeUnit = a.handle ∧ a.typeUnit.drop 2 = a.value :=
  ⟨getLe16_leBytes h _, List.drop_left' (length_leBytes 2 _)⟩

/-- The first byte says how long the types are. -/
def infoFormat (n : ℕ) : UInt8 := if n = 2 then 1 else 2

theorem encodeFindInfoRsp_eq {mtu : ℕ} {a : Attribute} {q : List Attribute}
    (hne : ∀ b ∈ a :: q, b.handle ≠ 0) :
    encodeFindInfoRsp mtu (a :: q) =
      some (fill Attribute.infoUnit (fun b => b.uuid.toLe.length = a.uuid.toLe.length) (mtu - 1)
        [infoFormat a.uuid.toLe.length] (a :: q)) := by
  have hformat : leBytes 1 (if a.uuid.toLe.length = 2 then 0x01 else 0x02) =
      [infoFormat a.uuid.toLe.length] := by
    unfold infoFormat
    split <;> rfl
  rw [encodeFindInfoRsp, List.head?_cons]
  simp only [hformat]
  exact findInfoGo_eq hne

/-- The part of the handler that looks for attributes. -/
theorem handleNotify_information (h : c.db.Sound) {start : ℕ} (hfirst : 1 ≤ start)
    (hlast : start ≤ 65535) :
    (handleNotify c (discoveryRequest env .findInfoReq start none)).1 =
      let q := c.db.activeAttributes.filter fun a => start ≤ a.handle
      if q.isEmpty then btAttSendErrorRsp c btAttOpFindInfoReq start btAttErrorAttributeNotFound
      else match encodeFindInfoRsp c.attMtu q with
        | none => btAttSendErrorRsp c btAttOpFindInfoReq start btAttErrorUnlikely
        | some rsp => btAttSend c btAttOpFindInfoRsp rsp := by
  rcases discoveryRequest_fields env .findInfoReq hlast none with ⟨hstart, hstop, _⟩
  have hlen : (discoveryRequest env .findInfoReq start none).pdu.length = 4 := by
    simp only [discoveryRequest, List.length_append, length_leBytes, Option.map_none,
      Option.getD_none, List.length_nil]
  show findInfoCb c btAttOpFindInfoReq (discoveryRequest env .findInfoReq start none).pdu = _
  unfold findInfoCb
  simp only [hstart, hstop, if_neg (show ¬(start = 0 ∨ 65535 = 0) by omega),
    if_neg (Nat.not_lt.mpr hlast)]
  have hq := findInformation_eq h start
  rw [if_neg (fun hne => hne hlen)]
  generalize gattDbFindInformation c.db start 65535 = q at hq ⊢
  subst hq
  rfl

theorem paged_information (h : c.db.Sound) (hmtu : 23 ≤ c.attMtu) :
    Paged (readInformation env c) Prod.fst 65535
      (c.db.activeAttributes.map fun a => (a.handle, a.uuid.toLe)) := by
  refine paged_map fun start hfirst hlast => ?_
  unfold readInformation
  rw [handleNotify_information h hfirst hlast]
  obtain ⟨items, hitems⟩ : ∃ items, (c.db.activeAttributes.filter fun a => start ≤ a.handle) =
    items := ⟨_, rfl⟩
  simp only [hitems]
  have hmem (a : Attribute) (ha : a ∈ items) : 1 ≤ a.handle ∧ a.handle ≤ 65535 := by
    rw [← hitems] at ha
    exact h.handle_pos (List.mem_filter.mp ha).1
  refine page_of_fill c Attribute.infoUnit (by decide) (fun a ha => ?_) (fun hnil => ?_)
    fun a l hcons => ?_
  · rcases a.infoUnit_fields (hmem a ha).2 with ⟨hhandle, htype⟩
    show (getLe16 a.infoUnit, a.infoUnit.drop 2) = _
    rw [hhandle, htype]
  · rw [hnil]
    exact ⟨_, _, _, rfl⟩
  · subst hcons
    have huuid := a.uuid.length_toLe
    refine ⟨l, fun b => b.uuid.toLe.length = a.uuid.toLe.length, a.uuid.toLe.length + 2,
      infoFormat a.uuid.toLe.length, List.prefix_rfl, by omega, fun b _ hb => ?_,
      decide_eq_true rfl, ?_, by omega, ?_⟩
    · rw [b.length_infoUnit, of_decide_eq_true hb]
    · rcases huuid with hlength | hlength <;> rw [hlength] <;> rfl
    · rw [encodeFindInfoRsp_eq fun b hb => Nat.ne_of_gt (hmem b hb).1]
      rfl

/-- An attribute whose value a client can read with its handle. -/
structure Attribute.Plain (env : Env) (c : Connection) (a : Attribute) : Prop where
  stored : a.readFunc = none
  permitted : checkPermissions env c a readMask = 0

theorem Attribute.Plain.read {a : Attribute} (h : a.Plain env c) :
    gattDbAttributeRead c a 0 = (c, some (0, a.value)) := by
  unfold gattDbAttributeRead
  rw [h.stored]
  exact if_neg (Nat.not_lt_zero _)

/-- Values are added to a response that is not empty as long as they have the
    length of the first one, and room. -/
theorem processReadByType_fill {q : List Attribute} (hq : ∀ a ∈ q, a.Plain env c)
    {op : AsyncReadOp} (hpdu : 1 ≤ op.pdu.length) :
    processReadByType env c op q =
      (btAttSend c btAttOpReadByTypeRsp
        (if op.done then op.pdu
          else fill Attribute.typeUnit (fun a => a.value.length = op.valueLen) (c.attMtu - 1)
            op.pdu q),
        { c with pendingReadOp := none }) := by
  induction q generalizing op with
  | nil =>
      rw [processReadByType, fill, ite_self]
  | cons a q ih =>
      have ha := hq a List.mem_cons_self
      have hrest : ∀ b ∈ q, b.Plain env c := fun b hb => hq b (List.mem_cons_of_mem a hb)
      have hfirst : ¬op.pdu.length = 0 := by omega
      unfold processReadByType
      -- An operation that is done sends what it has, whatever is left in the queue.
      by_cases hdone : op.done
      · rw [if_pos hdone, if_pos hdone]
      rw [if_neg hdone, if_neg hdone]
      simp only [ha.permitted, ne_eq, not_true_eq_false, if_false, ha.read]
      unfold AsyncReadOp.complete fill
      simp only [hfirst, decide_false, Bool.false_eq_true, if_false, not_false_eq_true, true_and,
        a.length_typeUnit]
      by_cases hlength : a.value.length = op.valueLen
      · rw [if_neg (fun h => h hlength), hlength]
        by_cases hroom : op.pdu.length + op.valueLen + 2 > c.attMtu - 1
        · -- Without room the operation is done, and the rest of the queue is dropped.
          rw [if_pos hroom, if_neg (by omega), @ih hrest { op with done := true } hpdu]
          rfl
        · -- The value is added. If nothing else has room, the response is sent.
          have happend : op.pdu ++ leBytes 2 a.handle ++ a.value.take op.valueLen =
              op.pdu ++ a.typeUnit := by
            rw [← hlength, List.take_length, List.append_assoc]
            rfl
          rw [if_neg hroom, if_pos ⟨decide_eq_true rfl, by omega⟩, happend,
            ih hrest (by rw [List.length_append]; omega)]
          congr 2
          split
          · case isTrue hfull =>
              rw [Bool.not_eq_true] at hdone
              simp only [hdone, Bool.false_or, decide_eq_true_eq] at hfull
              refine (fill_full hfull fun b _ => ?_).symm
              rw [b.length_typeUnit]
              omega
          · rfl
      · -- So it is with a value of another length.
        rw [if_pos hlength, if_neg (fun h => hlength (of_decide_eq_true h.1)),
          @ih hrest { op with done := true } hpdu]
        rfl

/-- A value that is sent as a whole. -/
def Attribute.Short (c : Connection) (a : Attribute) : Prop :=
  a.value.length + 4 ≤ c.attMtu ∧ a.value.length ≤ 253

/-- The first value sets the length of the units. -/
theorem processReadByType_begin {a : Attribute} {q : List Attribute}
    (hq : ∀ b ∈ a :: q, b.Plain env c) (hshort : a.Short c) :
    (processReadByType env c ⟨[], 0, false⟩ (a :: q)).1 =
      btAttSend c btAttOpReadByTypeRsp
        (fill Attribute.typeUnit (fun b => b.value.length = a.value.length) (c.attMtu - 1)
          [UInt8.ofNat (a.value.length + 2)] (a :: q)) := by
  have ha := hq a List.mem_cons_self
  have hrest : ∀ b ∈ q, b.Plain env c := fun b hb => hq b (List.mem_cons_of_mem a hb)
  have hmin : min (min (c.attMtu - 4) 253) a.value.length = a.value.length := by
    have h1 := hshort.1
    have h2 := hshort.2
    omega
  have hroom : ¬1 + a.value.length + 2 > c.attMtu - 1 := by
    have h1 := hshort.1
    omega
  have hheader : leBytes 1 (a.value.length + 2) = [UInt8.ofNat (a.value.length + 2)] := rfl
  have hpdu : [UInt8.ofNat (a.value.length + 2)] ++ leBytes 2 a.handle ++
      a.value.take a.value.length = [UInt8.ofNat (a.value.length + 2)] ++ a.typeUnit := by
    rw [List.take_length, List.append_assoc]
    rfl
  have hbegin : (⟨[], 0, false⟩ : AsyncReadOp).complete c.attMtu a.handle a.value =
      ⟨[UInt8.ofNat (a.value.length + 2)] ++ a.typeUnit, a.value.length,
        ([UInt8.ofNat (a.value.length + 2)] ++ a.typeUnit).length = c.attMtu - 1⟩ := by
    unfold AsyncReadOp.complete
    simp only [List.length_nil, decide_true, if_true, hmin, not_true_eq_false, false_and, if_false,
      hheader, List.length_singleton, if_neg hroom, hpdu, Bool.false_or]
  unfold processReadByType
  simp only [Bool.false_eq_true, if_false, ha.permitted, ne_eq, not_true_eq_false, ha.read, hbegin]
  rw [processReadByType_fill hrest (by rw [List.length_append, List.length_singleton]; omega)]
  simp only
  -- The fill takes the first value as well: it belongs, and it has room.
  conv_rhs =>
    rw [fill, List.length_singleton, a.length_typeUnit, if_pos ⟨decide_eq_true rfl, by omega⟩]
  split
  · case isTrue hfull =>
      rw [decide_eq_true_eq] at hfull
      refine congrArg _ (fill_full hfull fun b _ => ?_).symm
      rw [b.length_typeUnit]
      omega
  · rfl

/-- The part of the handler that looks for attributes of a type. -/
theorem readByTypeCb_attributes (h : c.db.Sound) (hidle : c.pendingReadOp = none) (type : Uuid)
    {start : ℕ} (hfirst : 1 ≤ start) (hlast : start ≤ 65535) :
    readByTypeCb env c btAttOpReadByTypeReq (discoveryRequest env .readByTypeReq start type).pdu =
      let q := (c.db.attributesOf type).filter fun a => start ≤ a.handle
      if q.isEmpty then
        (btAttSendErrorRsp c btAttOpReadByTypeReq start btAttErrorAttributeNotFound, c)
      else processReadByType env { c with pendingReadOp := some btAttOpReadByTypeReq }
        ⟨[], 0, false⟩ q := by
  rcases discoveryRequest_fields env .readByTypeReq hlast (some type) with ⟨hstart, hstop, hto⟩
  have hlen := discoveryRequest_length env .readByTypeReq start type
  unfold readByTypeCb
  simp only [hstart, hstop, hto, Option.map_some, Option.getD_some, Uuid.ofLe_toLe,
    if_neg (show ¬(start = 0 ∨ 65535 = 0) by omega), if_neg (Nat.not_lt.mpr hlast), hidle,
    Option.isSome_none, Bool.false_eq_true, if_false, readByType_eq h]
  exact if_neg (by omega)

theorem handleNotify_attributes (h : c.db.Sound) (hidle : c.pendingReadOp = none) (type : Uuid)
    {start : ℕ} (hfirst : 1 ≤ start) (hlast : start ≤ 65535) :
    (handleNotify c (discoveryRequest env .readByTypeReq start type)).1 =
      let q := (c.db.attributesOf type).filter fun a => start ≤ a.handle
      if q.isEmpty then btAttSendErrorRsp c btAttOpReadByTypeReq start btAttErrorAttributeNotFound
      else (processReadByType env { c with pendingReadOp := some btAttOpReadByTypeReq }
        ⟨[], 0, false⟩ q).1 := by
  show (readByTypeCb env c btAttOpReadByTypeReq
    (discoveryRequest env .readByTypeReq start type).pdu).1 = _
  rw [readByTypeCb_attributes h hidle type hfirst hlast]
  simp only
  split <;> rfl

theorem paged_attributes (h : c.db.Sound) (hidle : c.pendingReadOp = none) {type : Uuid}
    (hplain : ∀ a ∈ c.db.attributesOf type, a.Plain env c ∧ a.Short c) :
    Paged (readAttributes env c type) Prod.fst 65535
      ((c.db.attributesOf type).map fun a => (a.handle, a.value)) := by
  refine paged_map fun start hfirst hlast => ?_
  unfold readAttributes
  rw [handleNotify_attributes h hidle type hfirst hlast]
  obtain ⟨items, hitems⟩ : ∃ items, ((c.db.attributesOf type).filter fun a => start ≤ a.handle) =
    items := ⟨_, rfl⟩
  simp only [hitems]
  have hmem (a : Attribute) (ha : a ∈ items) : a ∈ c.db.attributesOf type := by
    rw [← hitems] at ha
    exact (List.mem_filter.mp ha).1
  refine page_of_fill c Attribute.typeUnit (by decide) (fun a ha => ?_) (fun hnil => ?_)
    fun a l hcons => ?_
  · have hpos := h.handle_pos (List.mem_filter.mp (hmem a ha)).1
    rcases a.typeUnit_fields hpos.2 with ⟨hhandle, hvalue⟩
    show (getLe16 a.typeUnit, a.typeUnit.drop 2) = _
    rw [hhandle, hvalue]
  · rw [hnil]
    exact ⟨_, _, _, rfl⟩
  · subst hcons
    have hshort := (hplain a (hmem a List.mem_cons_self)).2
    have hmtu := hshort.1
    have hbyte := hshort.2
    refine ⟨l, fun b => b.value.length = a.value.length, a.value.length + 2,
      UInt8.ofNat (a.value.length + 2), List.prefix_rfl, by omega, fun b _ hb => ?_,
      decide_eq_true rfl, ?_, by omega, ?_⟩
    · rw [b.length_typeUnit, of_decide_eq_true hb]
    · rw [id, UInt8.toNat_ofNat']
      omega
    · -- That the operation is pending changes neither the permissions nor the unit.
      exact @processReadByType_begin { c with pendingReadOp := some btAttOpReadByTypeReq } env a l
        (fun b hb => ⟨(hplain b (hmem b hb)).1.stored, (hplain b (hmem b hb)).1.permitted⟩) hshort

/-- Values that are stored are read without a trace. -/
theorem processReadByType_unchanged {q : List Attribute} (hq : ∀ a ∈ q, a.Plain env c)
    (op : AsyncReadOp) : (processReadByType env c op q).2 = { c with pendingReadOp := none } := by
  induction q generalizing op with
  | nil => rfl
  | cons a q ih =>
      have ha := hq a List.mem_cons_self
      unfold processReadByType
      by_cases hdone : op.done
      · rw [if_pos hdone]
      · rw [if_neg hdone]
        simp only [ha.permitted, ne_eq, not_true_eq_false, if_false, ha.read]
        exact ih (fun b hb => hq b (List.mem_cons_of_mem a hb)) _

/-- A request for attributes whose values are stored leaves the connection as it
    was. -/
theorem attributes_unchanged (h : c.db.Sound) (hidle : c.pendingReadOp = none) {type : Uuid}
    (hplain : ∀ a ∈ c.db.attributesOf type, a.Plain env c) {start : ℕ} (hfirst : 1 ≤ start)
    (hlast : start ≤ 65535) :
    (handleNotify c (discoveryRequest env .readByTypeReq start type)).2 = some c := by
  show some (readByTypeCb env c btAttOpReadByTypeReq
    (discoveryRequest env .readByTypeReq start type).pdu).2 = some c
  rw [readByTypeCb_attributes h hidle type hfirst hlast]
  simp only
  split
  · rfl
  · have hq (a : Attribute) (ha : a ∈ (c.db.attributesOf type).filter fun a => start ≤ a.handle) :
        a.Plain env { c with pendingReadOp := some btAttOpReadByTypeReq } :=
      ⟨(hplain a (List.mem_filter.mp ha).1).stored, (hplain a (List.mem_filter.mp ha).1).permitted⟩
    rw [processReadByType_unchanged hq, ← hidle]

end Attributes

section Requests

variable {c : Connection}

/-- A request for services leaves the connection as it was. -/
theorem services_unchanged (c : Connection) (env : Env) (start : ℕ) (type : Option Uuid) :
    (handleNotify c (discoveryRequest env .readByGrpTypeReq start type)).2 = some c := rfl

/-- So does one for handles and types. -/
theorem information_unchanged (c : Connection) (env : Env) (start : ℕ) (type : Option Uuid) :
    (handleNotify c (discoveryRequest env .findInfoReq start type)).2 = some c := rfl

/-- Many such requests leave it as one does. -/
theorem reaches_of_unchanged {request : ℕ → Exchange} {starts : List ℕ}
    (hsame : ∀ start ∈ starts, (handleNotify c (request start)).2 = some c) :
    gattMachine.Reaches c (starts.map request) c := by
  induction starts with
  | nil => exact reaches_nil_iff.mpr rfl
  | cons start starts ih =>
      exact reaches_cons_iff.mpr ⟨c, hsame start List.mem_cons_self,
        ih fun s hs => hsame s (List.mem_cons_of_mem start hs)⟩

/-- After any number of requests of a client the server is where it was, if those
    for attributes of a type find stored values. -/
theorem discovery_reaches (c : Connection) (env : Env) (type : Uuid) (starts : List ℕ) :
    gattMachine.Reaches c
        (starts.map fun start => discoveryRequest env .readByGrpTypeReq start type) c ∧
      gattMachine.Reaches c
        (starts.map fun start => discoveryRequest env .findInfoReq start none) c ∧
      (c.db.Sound → c.pendingReadOp = none → (∀ a ∈ c.db.attributesOf type, a.Plain env c) →
        (∀ start ∈ starts, 1 ≤ start ∧ start ≤ 65535) →
        gattMachine.Reaches c
          (starts.map fun start => discoveryRequest env .readByTypeReq start type) c) := by
  refine ⟨reaches_of_unchanged fun start _ => services_unchanged c env start type,
    reaches_of_unchanged fun start _ => information_unchanged c env start none, ?_⟩
  intro h hidle hplain hstarts
  exact reaches_of_unchanged fun start hstart =>
    attributes_unchanged h hidle hplain (hstarts start hstart).1 (hstarts start hstart).2

end Requests

section Program

variable {c : Connection} {env : Env}

/-- Only the handles matter. -/
theorem GattDb.Sound.of_mapAttributes {db : GattDb} {f : Attribute → Attribute}
    (h : (db.mapAttributes f).Sound) (hf : ∀ a, (f a).handle = a.handle) : db.Sound := by
  let g (s : Service) : Service := { s with declaration := f s.declaration, rest := s.rest.map f }
  have hstop (s : Service) : (g s).endHandle = s.endHandle := by
    show (f s.declaration).handle + s.numHandles - 1 = _
    rw [hf]
    rfl
  have hmem (s : Service) (hs : s ∈ db.services) : g s ∈ (db.mapAttributes f).services :=
    List.mem_map_of_mem hs
  refine ⟨⟨fun s hs => ?_, ?_⟩, fun s hs => ?_, fun s hs => ?_, fun s hs => ?_⟩
  · have hvalid := h.services.valid _ (hmem s hs)
    rwa [hstop, show (g s).declaration.handle = s.declaration.handle from hf _] at hvalid
  · refine (List.pairwise_map.mp h.services.sorted).imp fun {s t} hst => ?_
    have hst' : (g s).endHandle < (g t).declaration.handle := hst
    rwa [hstop, show (g t).declaration.handle = t.declaration.handle from hf _] at hst'
  · have hsound := h.sound _ (hmem s hs)
    have hattributes : (g s).attributes = s.attributes.map f := rfl
    refine ⟨hsound.room, ?_, fun a ha => ?_⟩
    · have hrising := hsound.rising
      rw [hattributes, List.map_map] at hrising
      rwa [show Attribute.handle ∘ f = Attribute.handle from funext hf] at hrising
    · have hwithin := hsound.within (f a) (hattributes ▸ List.mem_map_of_mem ha)
      rwa [hf, hstop] at hwithin
  · have hstart := h.start _ (hmem s hs)
    rwa [show (g s).declaration.handle = s.declaration.handle from hf _] at hstart
  · have hend := h.stop _ (hmem s hs)
    rwa [hstop] at hend

theorem layout_sound : layout.Sound := by
  have hall : ∀ s ∈ layout.services, 1 ≤ s.numHandles ∧
      (s.attributes.map Attribute.handle).Pairwise (· < ·) ∧
      ∀ a ∈ s.attributes, a.handle ≤ s.endHandle := by decide
  exact ⟨⟨by decide, by decide⟩, fun s hs => ⟨(hall s hs).1, (hall s hs).2.1, (hall s hs).2.2⟩,
    by decide, by decide⟩

theorem sound_of_ready (h : Ready c) : c.db.Sound := by
  have hsound : (c.db.mapAttributes .blank).Sound := h.layout ▸ layout_sound
  exact hsound.of_mapAttributes fun _ => rfl

/-- All services of the server are active. -/
theorem activeAttributes_of_ready (h : Ready c) :
    c.db.activeAttributes.map (fun a => (a.handle, a.uuid.toLe)) =
      layout.attributes.map fun a => (a.handle, a.uuid.toLe) := by
  have hactive : ∀ s ∈ layout.services, s.active := by decide
  have hall : ∀ s ∈ c.db.services, s.active := fun s hs => by
    let blank (t : Service) : Service :=
      { t with declaration := t.declaration.blank, rest := t.rest.map .blank }
    have hmem : blank s ∈ (c.db.mapAttributes .blank).services := List.mem_map_of_mem hs
    rw [h.layout] at hmem
    exact hactive (blank s) hmem
  have hsame : c.db.activeAttributes = c.db.attributes := by
    rw [GattDb.activeAttributes, List.filter_eq_self.mpr hall]
    rfl
  rw [hsame, ← h.layout, GattDb.attributes_mapAttributes, List.map_map]
  rfl

/-- The connection that the server starts with, and what is in its database. -/
theorem connect_found : ∃ c, connect (Globals.init 0) 0 = some c ∧ c.db.Sound ∧ c.attMtu = 23 ∧
    c.pendingReadOp = none ∧
    (∀ s ∈ c.db.servicesOf gattPrimSvcUuid,
      s.declaration.value.length = 2 ∨ s.declaration.value.length = 16) ∧
    (∀ a ∈ c.db.attributesOf gattCharacUuid,
      a.readFunc = none ∧ a.permissions = btAttPermRead ∧ a.value.length ≤ 19) ∧
    (c.db.servicesOf gattPrimSvcUuid).length = 4 ∧ c.db.activeAttributes.length = 18 ∧
    (c.db.attributesOf gattCharacUuid).length = 6 := by
  have hall : ∀ x ∈ populateDb ⟨0, false, 0, 0, false⟩ .new,
      (∀ s ∈ x.2.servicesOf gattPrimSvcUuid,
        s.declaration.value.length = 2 ∨ s.declaration.value.length = 16) ∧
      (∀ a ∈ x.2.attributesOf gattCharacUuid,
        a.readFunc = none ∧ a.permissions = btAttPermRead ∧ a.value.length ≤ 19) ∧
      (x.2.servicesOf gattPrimSvcUuid).length = 4 ∧ x.2.activeAttributes.length = 18 ∧
      (x.2.attributesOf gattCharacUuid).length = 6 := by decide
  rcases populateDb_layout with ⟨db, hdb, _, _⟩
  have hconnect : connect (Globals.init 0) 0 =
      some (btGattServerNew ⟨10, false, 14, 18, false⟩ db (Globals.init 0) 0 0) := by
    rw [connect, hdb]
    rfl
  refine ⟨_, hconnect, sound_of_ready (ready_connect hconnect), rfl, rfl, ?_⟩
  exact hall _ (by rw [hdb]; rfl)

end Program

section Discovery

variable {c : Connection} {env : Env} {requests : ℕ}

/-- A client finds all services of a type, with their ranges and their UUIDs. -/
theorem services_discovered (h : c.db.Sound) (hmtu : 23 ≤ c.attMtu) {type : Uuid}
    (htype : type.cmp gattPrimSvcUuid ∨ type.cmp gattSndSvcUuid)
    (huuid : ∀ s ∈ c.db.servicesOf type,
      s.declaration.value.length = 2 ∨ s.declaration.value.length = 16)
    (hrequests : (c.db.servicesOf type).length < requests) :
    readPages (readServices env c type) (fun r => r.2.1) 65535 requests 1 =
      (c.db.servicesOf type).map fun s =>
        (s.declaration.handle, s.endHandle, s.declaration.value) := by
  have hmem (s : Service) (hs : s ∈ c.db.servicesOf type) : s ∈ c.db.services :=
    (List.mem_filter.mp hs).1
  have hsub : (c.db.servicesOf type).Sublist c.db.services := List.filter_sublist
  have horder : InOrder Prod.fst (fun r : ℕ × ℕ × List UInt8 => r.2.1)
      ((c.db.servicesOf type).map fun s =>
        (s.declaration.handle, s.endHandle, s.declaration.value)) :=
    (h.services.sublist hsub).map _ (fun _ _ => rfl) fun _ _ => rfl
  refine readPages_all horder (fun r hr => ?_) (fun r hr => ?_) (paged_services h htype hmtu huuid)
    (by omega) (by rw [List.length_map]; exact hrequests)
  · rcases List.mem_map.mp hr with ⟨s, hs, rfl⟩
    exact h.start s (hmem s hs)
  · rcases List.mem_map.mp hr with ⟨s, hs, rfl⟩
    exact h.stop s (hmem s hs)

theorem services_discovered_connect : ∃ c, connect (Globals.init 0) 0 = some c ∧
    readPages (readServices Env.sample c gattPrimSvcUuid) (fun r => r.2.1) 65535 5 1 =
      (c.db.servicesOf gattPrimSvcUuid).map fun s =>
        (s.declaration.handle, s.endHandle, s.declaration.value) := by
  rcases connect_found with ⟨c, hconnect, hsound, hmtu, _, huuid, _, hlength, _⟩
  refine ⟨c, hconnect, services_discovered hsound ?_ (Or.inl (by decide)) huuid ?_⟩
  · rw [hmtu]
  · rw [hlength]
    decide

/-- Records of some of the attributes are in order. -/
theorem records_order (h : c.db.Sound) {items : List Attribute} {β : Type*} (f : Attribute → β)
    (hsub : items.Sublist c.db.activeAttributes) :
    InOrder Prod.fst Prod.fst (items.map fun a => (a.handle, f a)) ∧
      ∀ r ∈ items.map fun a => (a.handle, f a), 1 ≤ r.1 ∧ r.1 ≤ 65535 := by
  refine ⟨(h.activeAttributes_order.sublist hsub).map _ (fun _ _ => rfl) fun _ _ => rfl,
    fun r hr => ?_⟩
  rcases List.mem_map.mp hr with ⟨a, ha, rfl⟩
  exact h.handle_pos (hsub.subset ha)

/-- A client finds the handles and the types of all attributes. -/
theorem information_discovered (h : c.db.Sound) (hmtu : 23 ≤ c.attMtu)
    (hrequests : c.db.activeAttributes.length < requests) :
    readPages (readInformation env c) Prod.fst 65535 requests 1 =
      c.db.activeAttributes.map fun a => (a.handle, a.uuid.toLe) := by
  rcases records_order h (fun a => a.uuid.toLe) (List.Sublist.refl _) with ⟨horder, hbounds⟩
  exact readPages_all horder (fun r hr => (hbounds r hr).1) (fun r hr => (hbounds r hr).2)
    (paged_information h hmtu) (by omega) (by rw [List.length_map]; exact hrequests)

theorem information_discovered_connect : ∃ c, connect (Globals.init 0) 0 = some c ∧
    readPages (readInformation Env.sample c) Prod.fst 65535 19 1 =
      c.db.activeAttributes.map fun a => (a.handle, a.uuid.toLe) := by
  rcases connect_found with ⟨c, hconnect, hsound, hmtu, _, _, _, _, hlength, _⟩
  refine ⟨c, hconnect, information_discovered hsound ?_ ?_⟩
  · rw [hmtu]
  · rw [hlength]
    decide

/-- A client finds all attributes of a type, with their values, if it may read them
    and they fit. -/
theorem attributes_discovered (h : c.db.Sound) (hidle : c.pendingReadOp = none) {type : Uuid}
    (hplain : ∀ a ∈ c.db.attributesOf type, a.Plain env c ∧ a.Short c)
    (hrequests : (c.db.attributesOf type).length < requests) :
    readPages (readAttributes env c type) Prod.fst 65535 requests 1 =
      (c.db.attributesOf type).map fun a => (a.handle, a.value) := by
  rcases records_order h Attribute.value (List.filter_sublist (l := c.db.activeAttributes)
    (p := fun a => type.cmp a.uuid)) with ⟨horder, hbounds⟩
  exact readPages_all horder (fun r hr => (hbounds r hr).1) (fun r hr => (hbounds r hr).2)
    (paged_attributes h hidle hplain) (by omega) (by rw [List.length_map]; exact hrequests)

theorem attributes_discovered_connect : ∃ c, connect (Globals.init 0) 0 = some c ∧
    readPages (readAttributes Env.sample c gattCharacUuid) Prod.fst 65535 7 1 =
      (c.db.attributesOf gattCharacUuid).map fun a => (a.handle, a.value) := by
  rcases connect_found with ⟨c, hconnect, hsound, hmtu, hidle, _, hchars, _, _, hlength⟩
  refine ⟨c, hconnect, attributes_discovered hsound hidle (fun a ha => ?_) ?_⟩
  · rcases hchars a ha with ⟨hstored, hperm, hshort⟩
    refine ⟨⟨hstored, ?_⟩, ?_, ?_⟩
    · exact checkPermissions_open (by decide) hperm (by decide) (by decide) (by decide)
    · omega
    · omega
  · rw [hlength]
    decide

/-- Whatever a client has done, it finds the same table. -/
theorem table_discovered {globals : Globals} {mtu requests : ℕ} {is : List Exchange}
    {m : Connection} (hconnect : connect globals mtu = some c)
    (hfits : gattMachine.Steps Fits c is) (hr : gattMachine.Reaches c is m) (env : Env)
    (hrequests : layout.attributes.length < requests) :
    readPages (readInformation env m) Prod.fst 65535 requests 1 =
      layout.attributes.map fun a => (a.handle, a.uuid.toLe) := by
  have hready := ready_reaches hconnect hfits hr
  have hsound := sound_of_ready hready
  have htable := activeAttributes_of_ready hready
  have hlength : m.db.activeAttributes.length = layout.attributes.length := by
    have hlen := congrArg List.length htable
    rwa [List.length_map, List.length_map] at hlen
  rcases records_order hsound (fun a => a.uuid.toLe) (List.Sublist.refl _) with
    ⟨horder, hbounds⟩
  rw [← htable]
  exact readPages_all horder (fun r hr => (hbounds r hr).1) (fun r hr => (hbounds r hr).2)
    (paged_information hsound hready.mtu) (by omega)
    (by rw [List.length_map, hlength]; exact hrequests)

/-- A client that has asked for some services and sent a command finds it. -/
theorem table_discovered_connect :
    let is : List Exchange :=
      [discoveryRequest Env.sample .readByGrpTypeReq 1 gattPrimSvcUuid, .ignored]
    ∃ c m, connect (Globals.init 0) 0 = some c ∧ gattMachine.Reaches c is m ∧
      readPages (readInformation Env.sample m) Prod.fst 65535 19 1 =
        layout.attributes.map fun a => (a.handle, a.uuid.toLe) := by
  intro is
  rcases connect_sample with ⟨c, hconnect, hempty⟩
  have hready := ready_connect hconnect
  rcases gattDbGetAttribute_writeData hready.layout with ⟨a, hget, _⟩
  have hid : a.writes.id.toNat + 1 < 2 ^ 32 := by
    rw [hempty a (mem_of_gattDbGetAttribute hget).1]
    decide
  have hservices := services_unchanged c Env.sample 1 gattPrimSvcUuid
  have hr : gattMachine.Reaches c is _ := reaches_cons_iff.mpr ⟨c, hservices, reaches_cons_iff.mpr
    ⟨_, congrArg Prod.snd (handleNotify_ignored hready hget), reaches_nil_iff.mpr rfl⟩⟩
  have hfits : gattMachine.Steps Fits c is := by
    refine ⟨⟨fun b _ _ => b.reads.id.isLt, fun hwrites => ?_, fun hprep => ?_⟩, fun d hd => ?_⟩
    · -- It is not a write.
      rcases hwrites with ⟨hop | hop, _⟩ | ⟨hop, _⟩ <;> exact Opcode.noConfusion hop
    · exact Opcode.noConfusion hprep.1
    · rw [← Option.some.inj (hservices.symm.trans hd)]
      exact ⟨fits_writeData hready (Or.inr rfl) (by decide) hget hid, fun _ _ => trivial⟩
  exact ⟨c, _, hconnect, hr, table_discovered hconnect hfits hr Env.sample (by decide)⟩

end Discovery

end Wallclock
