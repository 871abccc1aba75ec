import Wallclock.Theory.Command

/-!
# Subscriptions

Whether the server asks before it notifies.

A client subscribes to the data characteristic by writing its CCC. The write
callback keeps the answer in `clock_read_data_notify`, and the flag is right:
`notify_reaches` shows that after every run it says whether the last accepted
CCC write of the connection enabled notifications. The read callback reports
it, and nothing else reads it. `clock_read_data_cb` sends without looking.

`NotifiesSubscribers` is the law that only subscribers are notified.
`notifiesSubscribers_iff` says that it holds exactly in the runs in which every
command that is answered arrives with the flag set, so that the missing test
makes no difference.

## Main definitions

* `cccStep`: The last accepted CCC write of the connection, one access later.
* `lastCcc`: The last accepted CCC write after a list of accesses.
* `Replies`: A write that will be answered with a notification.
* `NotifiesSubscribers`: Notifications go to subscribers only.

## Theorems

* `cccWrite_accepted`: What an accepted CCC write does.
* `cccWrite_rejected`: What any other CCC write does.
* `writeDataCcc_accepted_iff`: The data CCC writes that succeed.
* `notify_step`: One access keeps the flag up to date.
* `notify_reaches`: The flag is up to date after every run.
* `notified_iff`: The accesses that send a notification.
* `notifiesSubscribers_iff`: The runs in which only subscribers are notified.
* `unsubscribed_notified`: A client that never subscribed is notified.
* `notifiesSubscribers_subscribed`: A client that did is notified lawfully.
-/

namespace Wallclock

open ByteCodec StepMachine

/-- The first byte of the last accepted CCC write of the connection, after one
    more access. The CCC accepts two bytes at offset zero, the first of which
    is 0 or 1. -/
def cccStep (last : Option UInt8) : Access → Option UInt8
  | .connect => none
  | .writeDataCcc offset (some value) =>
    if value.length = 2 ∧ offset = 0 ∧ (value.headD 0 = 0x00 ∨ value.headD 0 = 0x01) then
      some (value.headD 0)
    else last
  | _ => last

/-- The first byte of the last accepted CCC write of the connection a list of
    accesses ends in, starting from a new connection. -/
def lastCcc (is : List Access) : Option UInt8 := is.foldl cccStep none

/-- The access is a command that is answered with a notification. -/
def Replies (g : Globals) : Access → Prop
  | .writeData offset (some cmd) _ _ => offset = 0 ∧ 1 ≤ cmd.length ∧ cmd.length ≤ 100 ∧
      (commandByte cmd = 2 ∨ commandByte cmd = 3 ∨ commandByte cmd = 1 ∧ g.gFaceTime ≠ 0)
  | _ => False

/-- In the run of the given accesses, a notification on the data handle is
    sent only where the last accepted CCC write of the connection enabled
    notifications. -/
def NotifiesSubscribers (a : App) (is : List Access) : Prop :=
  ∀ before i after m n, is = before ++ i :: after → accessMachine.Reaches a before m →
    .notified n ∈ (accessMachine.step m i).1 → n.handle = m.server.clockReadDataHandle →
    lastCcc before = some 0x01

section CccWrite

variable {on : UInt8} {set : Bool → Server → Server} {server : Server} {offset : Nat}
  {value : List UInt8}

/-- A CCC write that has two bytes, starts at offset zero and begins with zero
    or the enabling byte sets the flag. -/
theorem cccWrite_accepted (hon : on ≠ 0x00) (h : value.length = 2 ∧ offset = 0 ∧
      (value.headD 0 = 0x00 ∨ value.headD 0 = on)) :
    cccWrite on set server offset (some value)
      = (set (decide (value.headD 0 = on)) server, 0) := by
  rcases h with ⟨hlen, hoff, hval⟩
  simp only [cccWrite, hlen, hoff, ne_eq, not_true_eq_false, if_false]
  by_cases h0 : value.headD 0 = 0x00
  · simp only [h0, if_true, hon.symm, decide_false]
  · rw [if_neg h0, if_pos (hval.resolve_left h0), decide_eq_true (hval.resolve_left h0)]

/-- Any other write fails and leaves the server structure alone. -/
theorem cccWrite_rejected (h : ¬(value.length = 2 ∧ offset = 0 ∧
      (value.headD 0 = 0x00 ∨ value.headD 0 = on))) :
    ∃ ecode, ecode ≠ 0 ∧ cccWrite on set server offset (some value) = (server, ecode) := by
  unfold cccWrite
  by_cases hlen : value.length = 2
  · by_cases hoff : offset = 0
    · have hval : ¬(value.headD 0 = 0x00 ∨ value.headD 0 = on) := fun hv => h ⟨hlen, hoff, hv⟩
      refine ⟨0x80, by decide, ?_⟩
      simp only [hlen, hoff, ne_eq, not_true_eq_false, if_false]
      rw [if_neg (fun h0 => hval (Or.inl h0)), if_neg (fun h1 => hval (Or.inr h1))]
    · refine ⟨btAttErrorInvalidOffset, by decide, ?_⟩
      simp only [hlen, hoff, ne_eq, not_true_eq_false, not_false_eq_true, if_false, if_true]
  · exact ⟨btAttErrorInvalidAttributeValueLen, by decide, by
      simp only [hlen, ne_eq, not_false_eq_true, if_true]⟩

end CccWrite

/-- The accesses `cccStep` counts are the ones the server accepts. -/
theorem writeDataCcc_accepted_iff (a : App) (offset : Nat) (value : List UInt8) :
    (accessMachine.step a (.writeDataCcc offset (some value))).1 = [.written 0] ↔
      value.length = 2 ∧ offset = 0 ∧ (value.headD 0 = 0x00 ∨ value.headD 0 = 0x01) := by
  simp only [accessMachine, clockReadDataCccWriteCb, List.cons.injEq, Reply.written.injEq,
    and_true]
  by_cases h : value.length = 2 ∧ offset = 0 ∧ (value.headD 0 = 0x00 ∨ value.headD 0 = 0x01)
  · rw [cccWrite_accepted (by decide) h]
    exact iff_of_true rfl h
  · rcases cccWrite_rejected h with ⟨ecode, hne, heq⟩
    rw [heq]
    exact iff_of_false hne h

/-- One access keeps the flag in step with the last accepted CCC write. -/
theorem notify_step {a a' : App} {i : Access} {last : Option UInt8}
    (h : a.server.clockReadDataNotify = (last == some 0x01))
    (hstep : (accessMachine.step a i).2 = some a') :
    a'.server.clockReadDataNotify = (cccStep last i == some 0x01) := by
  cases i with
  | connect =>
      simp only [accessMachine, Option.some.injEq] at hstep
      rw [← hstep]
      rfl
  | readSvcChngdCcc offset =>
      simp only [accessMachine, Option.some.injEq] at hstep
      rw [← hstep]
      exact h
  | writeSvcChngdCcc offset value =>
      simp only [accessMachine, Option.some.injEq] at hstep
      rw [← hstep]
      -- The other CCC sets the other flag.
      have hother : (gattSvcChngdCccWriteCb a.server offset value).1.clockReadDataNotify
          = a.server.clockReadDataNotify := by
        unfold gattSvcChngdCccWriteCb cccWrite
        cases value with
        | none => rfl
        | some value =>
            simp only
            split_ifs <;> rfl
      exact hother.trans h
  | readDataCcc offset =>
      simp only [accessMachine, Option.some.injEq] at hstep
      rw [← hstep]
      exact h
  | writeDataCcc offset value =>
      simp only [accessMachine, Option.some.injEq] at hstep
      rw [← hstep]
      cases value with
      | none => exact h
      | some value =>
          unfold clockReadDataCccWriteCb
          by_cases haccept : value.length = 2 ∧ offset = 0 ∧
              (value.headD 0 = 0x00 ∨ value.headD 0 = 0x01)
          · have hlast : cccStep last (.writeDataCcc offset (some value)) = some (value.headD 0) :=
              if_pos haccept
            rw [cccWrite_accepted (by decide) haccept, hlast]
            rfl
          · rcases cccWrite_rejected haccept with ⟨ecode, _, heq⟩
            have hlast : cccStep last (.writeDataCcc offset (some value)) = last := if_neg haccept
            rw [heq, hlast]
            exact h
  | writeData offset value clock stack =>
      simp only [accessMachine] at hstep
      rcases hcb : clockWriteDataWriteCb stack clock a.server a.globals offset value with
        ⟨sent, _ | ⟨g, ecode⟩⟩
      · rw [hcb] at hstep
        exact absurd hstep (by simp only [reduceCtorEq, not_false_eq_true])
      · rw [hcb] at hstep
        simp only [Option.some.injEq] at hstep
        rw [← hstep]
        exact h

/-- After every run the flag says whether the last accepted CCC write of the
    connection enabled notifications. -/
theorem notify_reaches {a a' : App} {is : List Access}
    (ha : a.server.clockReadDataNotify = false) (hr : accessMachine.Reaches a is a') :
    a'.server.clockReadDataNotify = (lastCcc is == some 0x01) := by
  have hgen : ∀ (is : List Access) (a : App) (last : Option UInt8),
      a.server.clockReadDataNotify = (last == some 0x01) → accessMachine.Reaches a is a' →
      a'.server.clockReadDataNotify = (is.foldl cccStep last == some 0x01) := by
    intro is
    induction is with
    | nil =>
        intro a last h hr
        rw [reaches_nil_iff] at hr
        rw [← hr]
        exact h
    | cons i is ih =>
        intro a last h hr
        rcases reaches_cons_iff.mp hr with ⟨m, hm, hrest⟩
        exact ih m (cccStep last i) (notify_step h hm) hrest
  exact hgen is a none ha hr

/-- The accesses that send a notification are the answered commands, and it
    goes out on the data handle. -/
theorem notified_iff (a : App) (i : Access) :
    (∃ n, .notified n ∈ (accessMachine.step a i).1 ∧ n.handle = a.server.clockReadDataHandle) ↔
      Replies a.globals i := by
  cases i with
  | connect => simp only [accessMachine, List.not_mem_nil, false_and, exists_false, Replies]
  | readSvcChngdCcc offset =>
      simp only [accessMachine, List.mem_singleton, reduceCtorEq, false_and, exists_false, Replies]
  | writeSvcChngdCcc offset value =>
      simp only [accessMachine, List.mem_singleton, reduceCtorEq, false_and, exists_false, Replies]
  | readDataCcc offset =>
      simp only [accessMachine, List.mem_singleton, reduceCtorEq, false_and, exists_false, Replies]
  | writeDataCcc offset value =>
      simp only [accessMachine, List.mem_singleton, reduceCtorEq, false_and, exists_false, Replies]
  | writeData offset value clock stack =>
      cases value with
      | none =>
          simp only [accessMachine, clockWriteDataWriteCb, clockWriteDataWriteCbWith,
            List.map_nil, List.nil_append, List.mem_singleton, reduceCtorEq, false_and,
            exists_false, Replies]
      | some cmd =>
          unfold Replies
          by_cases hlen : 1 ≤ cmd.length ∧ cmd.length ≤ 100
          · by_cases hoff : offset = 0
            · rw [hoff]
              simp only [accessMachine, clockWriteDataWriteCb_accepted hlen.1 hlen.2, true_and,
                hlen.1, hlen.2]
              by_cases h1 : commandByte cmd = 1
              · by_cases hset : a.globals.gFaceTime = 0
                · rw [clockCommand_req_face_time_unset hlen.1 h1 hset]
                  simp only [Option.map_none, List.map_nil, List.not_mem_nil, false_and,
                    exists_false, h1, hset, ne_eq, not_true_eq_false, and_false, or_false,
                    Nat.reduceEqDiff]
                · rw [clockCommand_req_face_time hlen.1 h1 hset]
                  simp only [h1, hset, ne_eq, not_false_eq_true, and_self, or_true, iff_true]
                  exact ⟨_, List.mem_cons_self, rfl⟩
              · by_cases h2 : commandByte cmd = 2
                · rw [clockCommand_req_time hlen.1 h2]
                  simp only [h2, true_or, iff_true]
                  exact ⟨_, List.mem_cons_self, rfl⟩
                · by_cases h3 : commandByte cmd = 3
                  · rw [clockCommand_accept_status hlen.1 h3]
                    simp only [h3, true_or, or_true, iff_true]
                    exact ⟨_, List.mem_cons_self, rfl⟩
                  · rw [clockCommand_other hlen.1 h1 h2 h3]
                    simp only [Option.map_some, List.map_nil, List.nil_append, List.mem_singleton,
                      reduceCtorEq, false_and, exists_false, h1, h2, h3, or_self]
            · have hlen' : ¬(cmd.length = 0 ∨ cmd.length > 100) := by omega
              simp only [accessMachine, clockWriteDataWriteCb, clockWriteDataWriteCbWith,
                if_neg hlen', hoff, ne_eq, not_false_eq_true, if_true, List.map_nil,
                List.nil_append, List.mem_singleton, reduceCtorEq, false_and, exists_false]
          · have hlen' : cmd.length = 0 ∨ cmd.length > 100 := by omega
            simp only [accessMachine, clockWriteDataWriteCb, clockWriteDataWriteCbWith,
              if_pos hlen', List.map_nil, List.nil_append, List.mem_singleton, reduceCtorEq,
              false_and, exists_false, false_iff]
            intro h
            exact hlen ⟨h.2.1, h.2.2.1⟩

/-- Only subscribers are notified in exactly the runs in which every answered
    command arrives while `clock_read_data_notify` is set. -/
theorem notifiesSubscribers_iff (a : App) (ha : a.server.clockReadDataNotify = false)
    (is : List Access) :
    NotifiesSubscribers a is ↔ ∀ before i after m, is = before ++ i :: after →
      accessMachine.Reaches a before m → Replies m.globals i →
      m.server.clockReadDataNotify = true := by
  constructor
  · intro h before i after m heq hr hreply
    rcases (notified_iff m i).mpr hreply with ⟨n, hn, hhandle⟩
    rw [notify_reaches ha hr, h before i after m n heq hr hn hhandle, beq_self_eq_true]
  · intro h before i after m n heq hr hn hhandle
    have hflag := h before i after m heq hr ((notified_iff m i).mp ⟨n, hn, hhandle⟩)
    rw [notify_reaches ha hr] at hflag
    exact beq_iff_eq.mp hflag

/-- A client that has not written the CCC asks for the time and is notified. -/
theorem unsubscribed_notified :
    ¬NotifiesSubscribers ⟨⟨10, false, 14, 18, false⟩, Globals.init 0⟩
      [.writeData 0 (some [0x02]) ⟨0, fun _ => 0, 0, 0⟩ ⟨List.replicate 14 0, rfl⟩] := by
  intro h
  have hlast := h [] _ [] ⟨⟨10, false, 14, 18, false⟩, Globals.init 0⟩
    ⟨14, [0x02, 0, 0, 0, 0, 0, 0, 0, 0]⟩ rfl rfl (by decide) rfl
  exact absurd hlast (by decide)

/-- A client that subscribes and then asks for the time. -/
theorem notifiesSubscribers_subscribed :
    NotifiesSubscribers ⟨⟨10, false, 14, 18, false⟩, Globals.init 0⟩
      [.writeDataCcc 0 (some [0x01, 0x00]),
        .writeData 0 (some [0x02]) ⟨0, fun _ => 0, 0, 0⟩ ⟨List.replicate 14 0, rfl⟩] := by
  refine (notifiesSubscribers_iff _ rfl _).mpr ?_
  intro before i after m heq hr hreply
  rcases before with _ | ⟨b, _ | ⟨c, before⟩⟩
  · rw [List.nil_append, List.cons.injEq] at heq
    rw [← heq.1] at hreply
    exact absurd hreply not_false
  · rw [List.cons_append, List.cons.injEq] at heq
    rw [notify_reaches rfl hr, ← heq.1]
    rfl
  · have hlen := congrArg List.length heq
    simp only [List.length_cons, List.length_nil, List.length_append] at hlen
    omega

end Wallclock
