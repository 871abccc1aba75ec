import Wallclock.Core.Callbacks

/-!
# What Each Command Does

One lemma for each branch of `clock_command`, stated on the bytes the client
sent. They are the interface every later result about the handler uses; none
of them unfolds the handler again.

The union buffer is where the work is. A field of a received record is a slice
of the buffer after the copy, so it is a slice of the payload as long as the
payload reaches that far (`slice_memcpy`). A reply overwrites the same buffer,
and its bytes are the two fields just written (`slice_reply`, `slice_done`).

A status message that is shorter than its record is not covered by a slice of
the payload, and `clockCommand_accept_status` keeps the buffer in its
statement. What the missing bytes do is the subject of `Theory.Status`.

## Main definitions

* `commandByte`: The command byte of a payload.

## Theorems

* `slice_memcpy`: A field inside the payload is read from the payload.
* `u8Cmd_memcpy`: The command byte is the payload's first byte.
* `slice_reply`: The nine bytes of a reply that carries a value.
* `slice_done`: The one byte of a reply without a value.
* `clockCommand_req_face_time`: A face time request that is answered.
* `clockCommand_req_face_time_unset`: A face time request that ends the process.
* `clockCommand_req_time`: A time request.
* `clockCommand_accept_status`: A status message.
* `clockCommand_other`: Any other command byte is ignored.
* `length_clockCommand`: Every reply has nine bytes or one.
* `clockWriteDataWriteCb_accepted`: An accepted write runs the handler.
-/

namespace Wallclock

open ByteCodec

/-- The command byte of a payload, zero for the empty one. -/
def commandByte (cmd : List UInt8) : Nat := (cmd.headD 0).toNat

namespace Msg

theorem slice_memcpy (m : Msg) {cmd : List UInt8} {o k : Nat} (hcmd : o + k ≤ cmd.length)
    (hk : o + k ≤ sizeofMsgSts) : (m.memcpy cmd).slice o k = (cmd.drop o).take k := by
  have hlen : (cmd.take sizeofMsgSts).length = min sizeofMsgSts cmd.length := List.length_take
  rw [memcpy, Buffer.slice_write_inside _ _ (Nat.zero_le o) (by omega), Nat.sub_zero,
    List.drop_take, List.take_take, Nat.min_eq_left (by omega)]

theorem u8Cmd_memcpy (m : Msg) {cmd : List UInt8} (h : 1 ≤ cmd.length) :
    (m.memcpy cmd).u8Cmd = commandByte cmd := by
  rw [u8Cmd, slice_memcpy m (by omega) (by decide)]
  cases cmd with
  | nil => exact absurd h (by decide)
  | cons c cmd =>
      simp only [List.drop_zero, List.take_succ_cons, List.take_zero, leNat, Nat.mul_zero,
        Nat.add_zero, commandByte, List.headD_cons]

theorem slice_reply (m : Msg) (cmd : Nat) (data : BitVec 64) :
    ((m.setCmd cmd).setU64Data data).slice 0 sizeofMsgU64
      = leBytes 1 cmd ++ leBytes 8 data.toNat := by
  have hsplit : ∀ b : Msg, b.slice 0 sizeofMsgU64 = b.slice 0 1 ++ b.slice 1 8 := fun b => by
    rw [Buffer.slice, Buffer.slice, Buffer.slice, List.drop_zero]
    exact List.take_add (i := 1) (j := 8)
  -- The value does not reach the command byte written before it.
  have hcmd : ((m.setCmd cmd).setU64Data data).slice 0 1 = leBytes 1 cmd := by
    rw [setU64Data, Buffer.slice_write_before _ _ (by decide), setCmd,
      Buffer.slice_write_inside _ _ (Nat.zero_le 0) (by rw [length_leBytes]), Nat.sub_zero,
      List.drop_zero, List.take_of_length_le (by rw [length_leBytes])]
  have hdata : ((m.setCmd cmd).setU64Data data).slice 1 8 = leBytes 8 data.toNat := by
    rw [setU64Data, Buffer.slice_write_inside _ _ (le_refl 1) (by rw [length_leBytes]),
      Nat.sub_self, List.drop_zero, List.take_of_length_le (by rw [length_leBytes])]
  rw [hsplit, hcmd, hdata]

theorem slice_done (m : Msg) (cmd : Nat) :
    (m.setCmd cmd).slice 0 sizeofMsgU8 = leBytes 1 cmd := by
  rw [setCmd, Buffer.slice_write_inside _ _ (Nat.zero_le 0)
      (by rw [length_leBytes]; decide), Nat.sub_zero, List.drop_zero,
    List.take_of_length_le (by rw [length_leBytes]; decide)]

end Msg

variable {stack : Msg} {clock : Clock} {g : Globals} {cmd : List UInt8}

/-- A face time request with a face time set is answered with it. Only the
    time of the last activity changes. -/
theorem clockCommand_req_face_time (hlen : 1 ≤ cmd.length) (hcmd : commandByte cmd = clkReqFaceTime)
    (hset : g.gFaceTime ≠ 0) :
    clockCommand stack clock g cmd = ([leBytes 1 srvrAcceptFaceTime ++ leBytes 8 g.gFaceTime.toNat],
      some { g with lastActivity := clock.time }) := by
  rw [clockCommand, Msg.u8Cmd_memcpy _ hlen, if_pos hcmd, if_pos hset]
  simp only [Msg.slice_reply]

/-- A face time request with no face time set ends the process silently. -/
theorem clockCommand_req_face_time_unset (hlen : 1 ≤ cmd.length)
    (hcmd : commandByte cmd = clkReqFaceTime) (hunset : g.gFaceTime = 0) :
    clockCommand stack clock g cmd = ([], none) := by
  rw [clockCommand, Msg.u8Cmd_memcpy _ hlen, if_pos hcmd, if_neg (not_not_intro hunset)]

theorem clockCommand_req_time (hlen : 1 ≤ cmd.length) (hcmd : commandByte cmd = clkReqTime) :
    clockCommand stack clock g cmd
      = ([leBytes 1 srvrAcceptTime ++ leBytes 8 (getTime clock).toNat], some g) := by
  rw [clockCommand, Msg.u8Cmd_memcpy _ hlen, if_neg (by rw [hcmd]; decide), if_pos hcmd]
  simp only [Msg.slice_reply]

/-- A status message stores the fields of the buffer, whether or not the
    client sent them, and clears the face time. -/
theorem clockCommand_accept_status (hlen : 1 ≤ cmd.length)
    (hcmd : commandByte cmd = clkAcceptStatus) :
    clockCommand stack clock g cmd = ([leBytes 1 srvrAcceptDone], some { g with
      gPollInterval := BitVec.ofNat 16 (2 ^ (stack.memcpy cmd).stsInterval)
      gDelta := BitVec.ofNat 64 (stack.memcpy cmd).stsOffset
      gVbat := BitVec.ofNat 16 (stack.memcpy cmd).stsBattery
      gMatch := BitVec.ofNat 16 (stack.memcpy cmd).stsMatch
      gLastPollTime := clock.time
      gPollCount := g.gPollCount + 1
      gTimeouts := BitVec.ofNat 16 (stack.memcpy cmd).stsTimeouts
      gFaceTime := 0
      lastActivity := clock.time }) := by
  rw [clockCommand, Msg.u8Cmd_memcpy _ hlen, if_neg (by rw [hcmd]; decide),
    if_neg (by rw [hcmd]; decide), if_pos hcmd]
  simp only [Msg.slice_done, Nat.one_shiftLeft, Prod.mk.injEq, Option.some.injEq, true_and]
  -- A face time that is already zero stays zero.
  by_cases hset : g.gFaceTime = 0
  · rw [if_neg (not_not_intro hset), hset]
  · rw [if_pos hset]

theorem clockCommand_other (hlen : 1 ≤ cmd.length) (h1 : commandByte cmd ≠ clkReqFaceTime)
    (h2 : commandByte cmd ≠ clkReqTime) (h3 : commandByte cmd ≠ clkAcceptStatus) :
    clockCommand stack clock g cmd = ([], some g) := by
  rw [clockCommand, Msg.u8Cmd_memcpy _ hlen, if_neg h1, if_neg h2, if_neg h3]

/-- Every reply is a value message or a single byte. -/
theorem length_clockCommand {reply : List UInt8} (h : reply ∈ (clockCommand stack clock g cmd).1) :
    reply.length = sizeofMsgU64 ∨ reply.length = sizeofMsgU8 := by
  have hvalue : ∀ m : Msg, (m.slice 0 sizeofMsgU64).length = sizeofMsgU64 := fun m =>
    m.length_slice (by decide)
  have hdone : ∀ m : Msg, (m.slice 0 sizeofMsgU8).length = sizeofMsgU8 := fun m =>
    m.length_slice (by decide)
  unfold clockCommand at h
  simp only at h
  split_ifs at h
  · rw [List.mem_singleton.mp h]
    exact Or.inl (hvalue _)
  · exact absurd h List.not_mem_nil
  · rw [List.mem_singleton.mp h]
    exact Or.inl (hvalue _)
  · rw [List.mem_singleton.mp h]
    exact Or.inr (hdone _)
  · rw [List.mem_singleton.mp h]
    exact Or.inr (hdone _)
  · exact absurd h List.not_mem_nil

/-- An accepted write runs the command handler on exactly its value. -/
theorem clockWriteDataWriteCb_accepted {stack : Msg} {clock : Clock} {server : Server}
    {g : Globals} {cmd : List UInt8} (hlo : 1 ≤ cmd.length) (hhi : cmd.length ≤ 100) :
    clockWriteDataWriteCb stack clock server g 0 (some cmd)
      = ((clockCommand stack clock g cmd).1.map (clockReadDataCb server),
        (clockCommand stack clock g cmd).2.map fun g => (g, 0)) := by
  have hlen : ¬(cmd.length = 0 ∨ cmd.length > 100) := by omega
  simp only [clockWriteDataWriteCb, clockWriteDataWriteCbWith, if_neg hlen, ne_eq,
    not_true_eq_false, if_false]

end Wallclock
