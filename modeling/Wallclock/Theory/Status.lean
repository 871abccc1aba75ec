import Wallclock.Theory.Command

/-!
# Status Messages

The wire format of a status message, and what becomes of one.

`Status` is a status as the clock means it: five numbers, each of exactly the
width its field has, so that a status that does not fit its message cannot be
written down. `Status.encode` lays it out as `msg_sts_t` does and
`Status.decode` reads a message back. The two are inverse on messages of the
full length (`decode_encode`, `encode_decode`), and a message of at least that
length is handled by storing its decoded status
(`clockCommand_accept_status_full`).

`status_round_trip` puts these together. The conversions to the globals lose
nothing either: the poll interval is stored as a power of two and its exponent
is recovered by the base-two logarithm, and the narrow fields are widened.

A shorter message is accepted too. Its missing bytes are then whatever the
stack held, and the last of them is always the top byte of the time offset
(`stsOffset_short`), so two stacks that differ there leave different globals
behind. `writeEffect_stack_free_iff` says that this is the only way for the
effect of a message to depend on the stack.

## Main definitions

* `Status`: The contents of a status message.
* `Status.encode`: The status message with given contents.
* `Status.decode`: The contents of a status message.
* `Globals.record`: The globals after a status has been stored.
* `Globals.status`: The status the globals hold.
* `Observed`: The globals a client can influence.
* `writeEffect`: The observable effect of a write at offset zero.
* `fillStack`: Stack contents whose bytes are all the same.

## Theorems

* `length_encode`: A status message is 14 bytes long.
* `commandByte_encode_append`: A status message starts with its command byte.
* `decode_append`: Bytes after the message are not decoded.
* `decode_encode`: Decoding the encoding of a status gives it back.
* `encode_decode`: Encoding a decoded status message gives it back.
* `memcpy_decode`: The status view of the buffer is the decoded payload.
* `clockCommand_accept_status_full`: A complete status message is stored.
* `status_record`: The stored status is read back from the globals.
* `clockWriteDataWriteCb_encode`: Handling an encoded status stores it.
* `encode_status_clockCommand`: The globals after a message encode to it.
* `status_round_trip`: The round trip through the handler, both ways.
* `stsOffset_short`: A short message takes its offset's top byte from the stack.
* `writeEffect_stack_free`: Where the effect does not depend on the stack.
* `writeEffect_stack_dependent`: A short status message depends on the stack.
* `writeEffect_stack_free_iff`: When an effect is free of the stack.
-/

namespace Wallclock

open ByteCodec

/-- The contents of a status message. The offset is a signed number. -/
structure Status where
  timeouts : BitVec 8
  battery : BitVec 12
  interval : BitVec 4
  matches_ : BitVec 16
  offset : BitVec 64
deriving DecidableEq

namespace Status

/-- The packed layout of `msg_sts_t` with its command byte: the battery
    voltage in the low twelve bits of its word, the interval above it. -/
def encode (s : Status) : List UInt8 :=
  leBytes 1 clkAcceptStatus ++ (leBytes 1 s.timeouts.toNat ++
    (leBytes 2 (s.battery.toNat + 2 ^ 12 * s.interval.toNat) ++
      (leBytes 2 s.matches_.toNat ++ leBytes 8 s.offset.toNat)))

/-- The fields of a status message, each read at its offset. -/
def decode (bs : List UInt8) : Status where
  timeouts := BitVec.ofNat 8 (leNat ((bs.drop 1).take 1))
  battery := BitVec.ofNat 12 (leNat ((bs.drop 2).take 2))
  interval := BitVec.ofNat 4 (leNat ((bs.drop 2).take 2) / 2 ^ 12)
  matches_ := BitVec.ofNat 16 (leNat ((bs.drop 4).take 2))
  offset := BitVec.ofNat 64 (leNat ((bs.drop 6).take 8))

theorem length_encode (s : Status) : s.encode.length = sizeofMsgSts := by
  simp only [encode, List.length_append, length_leBytes, sizeofMsgSts]

theorem commandByte_encode_append (s : Status) (suffix : List UInt8) :
    commandByte (s.encode ++ suffix) = clkAcceptStatus := rfl

/-- Bytes after the message are not decoded. -/
theorem decode_append {bs : List UInt8} (h : bs.length = sizeofMsgSts) (suffix : List UInt8) :
    decode (bs ++ suffix) = decode bs := by
  have hfield : ∀ o k, o + k ≤ sizeofMsgSts →
      ((bs ++ suffix).drop o).take k = (bs.drop o).take k := by
    intro o k hk
    rw [List.drop_append_of_le_length (by omega),
      List.take_append_of_le_length (by rw [List.length_drop]; omega)]
  rw [decode, hfield 1 1 (by decide), hfield 2 2 (by decide), hfield 4 2 (by decide),
    hfield 6 8 (by decide), decode]

theorem decode_encode (s : Status) : decode s.encode = s := by
  have ht := s.timeouts.isLt
  have hb := s.battery.isLt
  have hi := s.interval.isLt
  have hm := s.matches_.isLt
  have ho := s.offset.isLt
  -- Each field's slice of the message is that field's encoding.
  have h1 : (s.encode.drop 1).take 1 = leBytes 1 s.timeouts.toNat := rfl
  have h2 : (s.encode.drop 2).take 2 = leBytes 2 (s.battery.toNat + 2 ^ 12 * s.interval.toNat) :=
    rfl
  have h4 : (s.encode.drop 4).take 2 = leBytes 2 s.matches_.toNat := rfl
  have h6 : (s.encode.drop 6).take 8 = leBytes 8 s.offset.toNat := rfl
  have hdiv : (s.battery.toNat + 2 ^ 12 * s.interval.toNat) / 2 ^ 12 = s.interval.toNat := by
    omega
  have hword : BitVec.ofNat 12 (s.battery.toNat + 2 ^ 12 * s.interval.toNat) = s.battery := by
    apply BitVec.eq_of_toNat_eq
    rw [BitVec.toNat_ofNat]
    omega
  rw [decode, h1, h2, h4, h6, leNat_leBytes_of_lt (by omega), leNat_leBytes_of_lt (by omega),
    leNat_leBytes_of_lt (by omega), leNat_leBytes_of_lt (by omega), hdiv, hword,
    BitVec.ofNat_toNat, BitVec.ofNat_toNat, BitVec.ofNat_toNat, BitVec.ofNat_toNat]
  simp only [BitVec.setWidth_eq]

theorem encode_decode {bs : List UInt8} (hlen : bs.length = sizeofMsgSts)
    (hcmd : commandByte bs = clkAcceptStatus) : (decode bs).encode = bs := by
  have hlen' : bs.length = 14 := hlen
  -- Each slice is the encoding of the number it decodes to.
  have hfield : ∀ o k, o + k ≤ 14 →
      leBytes k (leNat ((bs.drop o).take k)) = (bs.drop o).take k ∧
        leNat ((bs.drop o).take k) < 256 ^ k := by
    intro o k hk
    have hk' : ((bs.drop o).take k).length = k := by
      rw [List.length_take, List.length_drop]
      omega
    have hrt := leBytes_leNat ((bs.drop o).take k)
    have hlt := leNat_lt ((bs.drop o).take k)
    rw [hk'] at hrt hlt
    exact ⟨hrt, hlt⟩
  have hcmdByte : leBytes 1 clkAcceptStatus = (bs.drop 0).take 1 := by
    cases bs with
    | nil => exact absurd hlen' (by decide)
    | cons b bs =>
        rw [← hcmd]
        simp only [commandByte, List.headD_cons, leBytes, UInt8.ofNat_toNat, List.drop_zero,
          List.take_succ_cons, List.take_zero]
  rcases hfield 1 1 (by omega) with ⟨h1, hl1⟩
  rcases hfield 2 2 (by omega) with ⟨h2, hl2⟩
  rcases hfield 4 2 (by omega) with ⟨h4, hl4⟩
  rcases hfield 6 8 (by omega) with ⟨h6, hl6⟩
  -- The two bit-fields make up their word again.
  have hword : leNat ((bs.drop 2).take 2) % 2 ^ 12
      + 2 ^ 12 * (leNat ((bs.drop 2).take 2) / 2 ^ 12 % 2 ^ 4) = leNat ((bs.drop 2).take 2) := by
    omega
  have hjoin : ∀ o k rest, rest = bs.drop (o + k) → (bs.drop o).take k ++ rest = bs.drop o := by
    intro o k rest hrest
    rw [hrest, ← List.drop_drop, List.take_append_drop]
  rw [encode, decode]
  simp only [BitVec.toNat_ofNat]
  -- The slices follow each other and make up the message.
  rw [hword, Nat.mod_eq_of_lt (b := 2 ^ 8) (by omega), Nat.mod_eq_of_lt (b := 2 ^ 16) (by omega),
    Nat.mod_eq_of_lt (b := 2 ^ 64) (by omega), hcmdByte, h1, h2, h4, h6]
  rw [hjoin 0 1, List.drop_zero]
  rw [hjoin 1 1]
  rw [hjoin 2 2]
  rw [hjoin 4 2]
  rw [List.take_of_length_le (by rw [List.length_drop]; omega)]

end Status

/-- The globals after a status has been stored at a given time. -/
def Globals.record (g : Globals) (s : Status) (now : BitVec 64) : Globals :=
  { g with
    gPollInterval := BitVec.ofNat 16 (2 ^ s.interval.toNat)
    gDelta := s.offset
    gVbat := s.battery.setWidth 16
    gMatch := s.matches_
    gLastPollTime := now
    gPollCount := g.gPollCount + 1
    gTimeouts := s.timeouts.setWidth 16
    gFaceTime := 0
    lastActivity := now }

/-- The status the globals hold, read back through the base-two logarithm of
    the poll interval. -/
def Globals.status (g : Globals) : Status where
  timeouts := g.gTimeouts.setWidth 8
  battery := g.gVbat.setWidth 12
  interval := BitVec.ofNat 4 (Nat.log2 g.gPollInterval.toNat)
  matches_ := g.gMatch
  offset := g.gDelta

/-- The status view of the union buffer is the decoded payload, as long as the
    payload is a whole status message. -/
theorem memcpy_decode (m : Msg) {cmd : List UInt8} (h : sizeofMsgSts ≤ cmd.length) :
    (m.memcpy cmd).stsTimeouts = leNat ((cmd.drop 1).take 1) ∧
      (m.memcpy cmd).stsBattery = leNat ((cmd.drop 2).take 2) % 2 ^ 12 ∧
      (m.memcpy cmd).stsInterval = leNat ((cmd.drop 2).take 2) / 2 ^ 12 ∧
      (m.memcpy cmd).stsMatch = leNat ((cmd.drop 4).take 2) ∧
      (m.memcpy cmd).stsOffset = leNat ((cmd.drop 6).take 8) := by
  have hlen : 14 ≤ cmd.length := h
  refine ⟨?_, ?_, ?_, ?_, ?_⟩
  · rw [Msg.stsTimeouts, Msg.slice_memcpy m (by omega) (by decide)]
  · rw [Msg.stsBattery, Msg.slice_memcpy m (by omega) (by decide)]
  · rw [Msg.stsInterval, Msg.slice_memcpy m (by omega) (by decide)]
  · rw [Msg.stsMatch, Msg.slice_memcpy m (by omega) (by decide)]
  · rw [Msg.stsOffset, Msg.slice_memcpy m (by omega) (by decide)]

/-- A complete status message is acknowledged and its contents are stored. -/
theorem clockCommand_accept_status_full {stack : Msg} {clock : Clock} {g : Globals}
    {cmd : List UInt8} (hlen : sizeofMsgSts ≤ cmd.length)
    (hcmd : commandByte cmd = clkAcceptStatus) :
    clockCommand stack clock g cmd
      = ([leBytes 1 srvrAcceptDone], some (g.record (Status.decode cmd) clock.time)) := by
  have hlen' : 14 ≤ cmd.length := hlen
  rcases memcpy_decode stack hlen with ⟨ht, hb, hi, hm, ho⟩
  have hword : leNat ((cmd.drop 2).take 2) < 256 ^ 2 := by
    have hlt := leNat_lt ((cmd.drop 2).take 2)
    rwa [List.length_take, List.length_drop, Nat.min_eq_left (by omega)] at hlt
  have htime : leNat ((cmd.drop 1).take 1) < 256 ^ 1 := by
    have hlt := leNat_lt ((cmd.drop 1).take 1)
    rwa [List.length_take, List.length_drop, Nat.min_eq_left (by omega)] at hlt
  rw [clockCommand_accept_status (by omega) hcmd, ht, hb, hi, hm, ho, Globals.record,
    Status.decode]
  -- The narrow fields are widened without loss.
  have hwb : BitVec.ofNat 16 (leNat ((cmd.drop 2).take 2) % 2 ^ 12)
      = (BitVec.ofNat 12 (leNat ((cmd.drop 2).take 2))).setWidth 16 := by
    apply BitVec.eq_of_toNat_eq
    simp only [BitVec.toNat_ofNat, BitVec.toNat_setWidth]
  have hwt : BitVec.ofNat 16 (leNat ((cmd.drop 1).take 1))
      = (BitVec.ofNat 8 (leNat ((cmd.drop 1).take 1))).setWidth 16 := by
    apply BitVec.eq_of_toNat_eq
    simp only [BitVec.toNat_ofNat, BitVec.toNat_setWidth]
    omega
  have hwi : (BitVec.ofNat 4 (leNat ((cmd.drop 2).take 2) / 2 ^ 12)).toNat
      = leNat ((cmd.drop 2).take 2) / 2 ^ 12 := by
    rw [BitVec.toNat_ofNat]
    omega
  rw [hwb, hwt, hwi]

/-- A stored status is read back from the globals. -/
theorem status_record (g : Globals) (s : Status) (now : BitVec 64) :
    (g.record s now).status = s := by
  have hi := s.interval.isLt
  have hpow : 2 ^ s.interval.toNat < 2 ^ 16 := Nat.pow_lt_pow_right (by decide) (by omega)
  have hlog : Nat.log2 (2 ^ s.interval.toNat % 2 ^ 16) = s.interval.toNat := by
    rw [Nat.mod_eq_of_lt hpow, Nat.log2_two_pow]
  simp only [Globals.status, Globals.record, BitVec.toNat_ofNat, hlog, BitVec.ofNat_toNat,
    BitVec.setWidth_eq, BitVec.setWidth_setWidth_of_le, Nat.reduceLeDiff]

/-- Encoding a status, handling it with any accepted suffix and reading the
    globals back gives the status again. -/
theorem clockWriteDataWriteCb_encode (stack : Msg) (clock : Clock) (server : Server) (g : Globals)
    (s : Status) {suffix : List UInt8} (hsuffix : suffix.length ≤ 86) :
    clockWriteDataWriteCb stack clock server g 0 (some (s.encode ++ suffix))
      = ([clockReadDataCb server (leBytes 1 srvrAcceptDone)],
        some (g.record s clock.time, 0)) := by
  have hlen : (s.encode ++ suffix).length = 14 + suffix.length := by
    rw [List.length_append, Status.length_encode, sizeofMsgSts]
  rw [clockWriteDataWriteCb_accepted (by omega) (by omega), clockCommand_accept_status_full
      (by rw [hlen, sizeofMsgSts]; omega) (Status.commandByte_encode_append s suffix),
    Status.decode_append (Status.length_encode s), Status.decode_encode]
  rfl

/-- The globals after a whole status message encode to that message. -/
theorem encode_status_clockCommand {stack : Msg} {clock : Clock} {g g' : Globals}
    {bs : List UInt8} (hlen : bs.length = sizeofMsgSts) (hcmd : commandByte bs = clkAcceptStatus)
    (h : (clockCommand stack clock g bs).2 = some g') : g'.status.encode = bs := by
  rw [clockCommand_accept_status_full (le_of_eq hlen.symm) hcmd, Option.some.injEq] at h
  rw [← h, status_record, Status.encode_decode hlen hcmd]

/-- The round trip of the status codec through the handler. A status and any
    accepted suffix leave the globals with the status's numbers, the offset
    with its sign; a 14-byte status message is encoded by the globals it
    leaves; and two such messages that leave the same status behind are the
    same message. -/
theorem status_round_trip (clock : Clock) (server : Server) :
    (∀ (stack : Msg) (g : Globals) (s : Status) (suffix : List UInt8), suffix.length ≤ 86 →
      ∃ g' : Globals, (clockWriteDataWriteCb stack clock server g 0
          (some (s.encode ++ suffix))).2 = some (g', 0) ∧
        g'.gTimeouts.toNat = s.timeouts.toNat ∧ g'.gVbat.toNat = s.battery.toNat ∧
        g'.gPollInterval.toNat = 2 ^ s.interval.toNat ∧ g'.gMatch.toNat = s.matches_.toNat ∧
        g'.gDelta.toInt = s.offset.toInt) ∧
    (∀ (stack : Msg) (g : Globals) (bs : List UInt8), bs.length = 14 → commandByte bs = 3 →
      ∃ g' : Globals, (clockWriteDataWriteCb stack clock server g 0 (some bs)).2 = some (g', 0) ∧
        g'.status.encode = bs) ∧
    (∀ (stack₁ stack₂ : Msg) (g₁ g₂ g₁' g₂' : Globals) (bs₁ bs₂ : List UInt8),
      bs₁.length = 14 → bs₂.length = 14 → commandByte bs₁ = 3 → commandByte bs₂ = 3 →
      (clockCommand stack₁ clock g₁ bs₁).2 = some g₁' →
      (clockCommand stack₂ clock g₂ bs₂).2 = some g₂' → g₁'.status = g₂'.status → bs₁ = bs₂) := by
  refine ⟨?_, ?_, ?_⟩
  · intro stack g s suffix hsuffix
    refine ⟨g.record s clock.time, ?_, ?_, ?_, ?_, rfl, rfl⟩
    · rw [clockWriteDataWriteCb_encode stack clock server g s hsuffix]
    · have ht := s.timeouts.isLt
      rw [Globals.record, BitVec.toNat_setWidth]
      omega
    · have hb := s.battery.isLt
      rw [Globals.record, BitVec.toNat_setWidth]
      omega
    · -- The shift stays within 16 bits for every four-bit exponent.
      have hi := s.interval.isLt
      rw [Globals.record, BitVec.toNat_ofNat]
      exact Nat.mod_eq_of_lt (Nat.pow_lt_pow_right (by decide) (by omega))
  · intro stack g bs hlen hcmd
    have hfull : clockCommand stack clock g bs
        = ([leBytes 1 srvrAcceptDone], some (g.record (Status.decode bs) clock.time)) :=
      clockCommand_accept_status_full (le_of_eq hlen.symm) hcmd
    refine ⟨g.record (Status.decode bs) clock.time, ?_, ?_⟩
    · rw [clockWriteDataWriteCb_accepted (by omega) (by omega), hfull]
      rfl
    · exact encode_status_clockCommand hlen hcmd (by rw [hfull])
  · intro stack₁ stack₂ g₁ g₂ g₁' g₂' bs₁ bs₂ hlen₁ hlen₂ hcmd₁ hcmd₂ h₁ h₂ hsame
    rw [← encode_status_clockCommand hlen₁ hcmd₁ h₁, hsame,
      encode_status_clockCommand hlen₂ hcmd₂ h₂]

theorem status_round_trip_negative_offset :
    ∃ g' : Globals, (clockWriteDataWriteCb ⟨List.replicate 14 0, rfl⟩ ⟨0, fun _ => 0, 0, 0⟩
        ⟨10, false, 14, 18, false⟩ (Globals.init 0) 0
        (some (Status.encode ⟨7, 2748, 5, 300, -2⟩ ++ [0xff]))).2 = some (g', 0) ∧
      g'.gTimeouts.toNat = 7 ∧ g'.gVbat.toNat = 2748 ∧ g'.gPollInterval.toNat = 2 ^ 5 ∧
      g'.gMatch.toNat = 300 ∧ g'.gDelta.toInt = -2 :=
  (status_round_trip ⟨0, fun _ => 0, 0, 0⟩ ⟨10, false, 14, 18, false⟩).1 _ _
    ⟨7, 2748, 5, 300, -2⟩ [0xff] (by decide)

/-- The globals a client can influence, without the time stamps. -/
structure Observed where
  gPollInterval : BitVec 16
  gDelta : BitVec 64
  gVbat : BitVec 16
  gMatch : BitVec 16
  gTimeouts : BitVec 16
  gPollCount : BitVec 16
  gFaceTime : BitVec 64
deriving DecidableEq

def Globals.observed (g : Globals) : Observed :=
  ⟨g.gPollInterval, g.gDelta, g.gVbat, g.gMatch, g.gTimeouts, g.gPollCount, g.gFaceTime⟩

/-- The observable effect of a client's write at offset zero: the
    notifications, and the observed globals unless the process exits. -/
def writeEffect (stack : Msg) (clock : Clock) (server : Server) (g : Globals)
    (cmd : List UInt8) : List Notification × Option Observed :=
  let (sent, next) := clockWriteDataWriteCb stack clock server g 0 (some cmd)
  (sent, next.map fun r => r.1.observed)

/-- The stack contents whose bytes are all the same. -/
def fillStack (b : UInt8) : Msg where
  bytes := List.replicate sizeofMsgSts b
  size := List.length_replicate

/-- A payload shorter than the record leaves the top byte of the offset to
    the stack. -/
theorem stsOffset_short (m : Msg) {cmd : List UInt8} (h : cmd.length < sizeofMsgSts) :
    (m.memcpy cmd).stsOffset
      = leNat ((m.memcpy cmd).slice 6 7) + 256 ^ 7 * leNat (m.slice 13 1) := by
  have hlen : cmd.length < 14 := h
  have hsplit : (m.memcpy cmd).slice 6 8
      = (m.memcpy cmd).slice 6 7 ++ (m.memcpy cmd).slice 13 1 := by
    rw [Buffer.slice, Buffer.slice, Buffer.slice, List.take_add (i := 7) (j := 1), List.drop_drop]
  -- The copy ends before byte 13.
  have htop : (m.memcpy cmd).slice 13 1 = m.slice 13 1 := by
    rw [Msg.memcpy, Buffer.slice_write_after _ _
      (by rw [Nat.zero_add, List.length_take]; omega)]
  rw [Msg.stsOffset, hsplit, leNat_append, htop, Buffer.length_slice _ (by decide)]

/-- Where the status record is complete, or the command is another one, the
    effect does not depend on the stack. -/
theorem writeEffect_stack_free {clock : Clock} {server : Server} {g : Globals} {cmd : List UInt8}
    (hlo : 1 ≤ cmd.length) (hhi : cmd.length ≤ 100)
    (h : commandByte cmd ≠ clkAcceptStatus ∨ sizeofMsgSts ≤ cmd.length) (stack₁ stack₂ : Msg) :
    writeEffect stack₁ clock server g cmd = writeEffect stack₂ clock server g cmd := by
  -- Only the status branch reads past the command byte.
  have hsame : clockCommand stack₁ clock g cmd = clockCommand stack₂ clock g cmd := by
    by_cases h1 : commandByte cmd = clkReqFaceTime
    · by_cases hset : g.gFaceTime = 0
      · rw [clockCommand_req_face_time_unset hlo h1 hset,
          clockCommand_req_face_time_unset hlo h1 hset]
      · rw [clockCommand_req_face_time hlo h1 hset, clockCommand_req_face_time hlo h1 hset]
    · by_cases h2 : commandByte cmd = clkReqTime
      · rw [clockCommand_req_time hlo h2, clockCommand_req_time hlo h2]
      · by_cases h3 : commandByte cmd = clkAcceptStatus
        · have hfull := h.resolve_left (not_not_intro h3)
          rw [clockCommand_accept_status_full hfull h3, clockCommand_accept_status_full hfull h3]
        · rw [clockCommand_other hlo h1 h2 h3, clockCommand_other hlo h1 h2 h3]
  rw [writeEffect, writeEffect, clockWriteDataWriteCb_accepted hlo hhi,
    clockWriteDataWriteCb_accepted hlo hhi, hsame]

/-- A short status message stores a different offset on a cleared stack than
    on one whose bits are all set. -/
theorem writeEffect_stack_dependent {clock : Clock} {server : Server} {g : Globals}
    {cmd : List UInt8} (hlo : 1 ≤ cmd.length) (hcmd : commandByte cmd = clkAcceptStatus)
    (hshort : cmd.length < sizeofMsgSts) :
    writeEffect (fillStack 0x00) clock server g cmd
      ≠ writeEffect (fillStack 0xff) clock server g cmd := by
  have hlen : cmd.length < 14 := hshort
  have hlt : ∀ m : Msg, leNat (m.slice 6 7) < 256 ^ 7 := fun m => by
    have h := leNat_lt (m.slice 6 7)
    rwa [Buffer.length_slice _ (by decide)] at h
  have hzero := stsOffset_short (fillStack 0x00) hshort
  have hones := stsOffset_short (fillStack 0xff) hshort
  have hl0 := hlt ((fillStack 0x00).memcpy cmd)
  have hl1 := hlt ((fillStack 0xff).memcpy cmd)
  rw [show leNat ((fillStack 0x00).slice 13 1) = 0 from rfl] at hzero
  rw [show leNat ((fillStack 0xff).slice 13 1) = 255 from rfl] at hones
  intro heq
  -- The stored offsets would be equal numbers below `2 ^ 64`.
  rw [writeEffect, writeEffect, clockWriteDataWriteCb_accepted hlo (by omega),
    clockWriteDataWriteCb_accepted hlo (by omega), clockCommand_accept_status hlo hcmd,
    clockCommand_accept_status hlo hcmd] at heq
  simp only [Option.map_some, Globals.observed, Prod.mk.injEq, Option.some.injEq,
    Observed.mk.injEq] at heq
  have hoff := congrArg BitVec.toNat heq.2.2.1
  rw [BitVec.toNat_ofNat, BitVec.toNat_ofNat] at hoff
  omega

/-- The effect of a write is a function of the bytes sent, the state and the
    clock exactly when the write is not a status message shorter than its
    record. -/
theorem writeEffect_stack_free_iff (clock : Clock) (server : Server) (g : Globals)
    (cmd : List UInt8) (hlo : 1 ≤ cmd.length) (hhi : cmd.length ≤ 100) :
    (∀ stack₁ stack₂ : Msg,
        writeEffect stack₁ clock server g cmd = writeEffect stack₂ clock server g cmd) ↔
      (commandByte cmd ≠ clkAcceptStatus ∨ sizeofMsgSts ≤ cmd.length) := by
  constructor
  · intro hfree
    by_cases hcmd : commandByte cmd = clkAcceptStatus
    · right
      by_contra hshort
      exact writeEffect_stack_dependent hlo hcmd (by omega) (hfree _ _)
    · exact Or.inl hcmd
  · exact fun h => writeEffect_stack_free hlo hhi h

/-- The shortest status message, handled on two stacks. -/
theorem writeEffect_lone_status :
    writeEffect (fillStack 0x00) ⟨0, fun _ => 0, 0, 0⟩ ⟨10, false, 14, 18, false⟩
        (Globals.init 0) [0x03]
      ≠ writeEffect (fillStack 0xff) ⟨0, fun _ => 0, 0, 0⟩ ⟨10, false, 14, 18, false⟩
        (Globals.init 0) [0x03] := by
  decide

theorem writeEffect_stack_free_iff_time_request :
    writeEffect (fillStack 0x00) ⟨0, fun _ => 0, 0, 0⟩ ⟨10, false, 14, 18, false⟩
        (Globals.init 0) [0x02]
      = writeEffect (fillStack 0xff) ⟨0, fun _ => 0, 0, 0⟩ ⟨10, false, 14, 18, false⟩
        (Globals.init 0) [0x02] :=
  (writeEffect_stack_free_iff _ _ _ [0x02] (by decide) (by decide)).mpr (Or.inl (by decide)) _ _

end Wallclock
