import Wallclock.Theory.Subscription

/-!
# The CCCs as Registers

What a client gets back when it reads a CCC it has written.

A CCC has two bytes, and the server keeps one bit of them. The write callback
accepts two bytes at offset zero if the first is zero or the byte that sets
the flag, and does not look at the second. The read callback makes two bytes
of the flag again, the second of which is always zero. So a write whose second
byte is not zero succeeds and reads back differently.

`Ccc` names the two descriptors, so that what is true of both is said once.
`tracks_reaches` is the invariant of a run: each flag is what the last
accepted write to its CCC left behind. `FaithfulRegisters` is what one expects
of two registers, and `faithfulRegisters_iff` says that it holds exactly in
the runs in which no CCC is read while its last accepted write has a second
byte that is not zero.

## Main definitions

* `Ccc`: The two CCCs.
* `Ccc.on`, `Ccc.flag`: The byte that sets the flag, and the flag.
* `Ccc.read`, `Ccc.write`: The accesses to a CCC.
* `Ccc.written`: The offset and the bytes an access writes to a CCC.
* `Ccc.Accepts`, `Ccc.accepted`: The writes the callbacks accept.
* `Ccc.update`: The last successful write, one access later.
* `Ccc.last`: The last accepted write of the connection.
* `Ccc.answered`: The last write answered with success.
* `Ccc.reply`: The answer to a read at offset zero.
* `Ccc.Tracks`: The flag is what a write left behind.
* `FaithfulRegisters`: The CCCs are registers.

## Theorems

* `reply_eq`: A read returns the flag as two bytes.
* `write_accepted`, `write_rejected`, `write_null`: What a write does.
* `rejected_step`: A write that fails changes nothing.
* `flag_write_other`: A write to one CCC leaves the other flag alone.
* `written_zero_iff`: The writes that are answered with success.
* `written_eq_some_iff`: The accesses that are writes to a CCC.
* `server_step`: The other accesses leave the server structure alone.
* `update_answered`, `answered_eq`: The writes answered with success are the
  accepted ones.
* `update_other`: What is not a write to the CCC leaves its last write alone.
* `tracks_fresh`, `tracks_congr`: A new connection; equal flags.
* `tracks_write`, `tracks_step`: One access keeps the flag in step.
* `tracks_reaches`: The flag is in step after every run.
* `reply_last_iff`: When a read returns what was last written.
* `faithfulRegisters_iff`: The runs in which the CCCs are registers.
* `second_byte_lost`: A run in which they are not.
-/

namespace Wallclock

open StepMachine

inductive Ccc
  | svcChngd
  | readData
deriving DecidableEq

namespace Ccc

/-- The first byte that sets the flag. -/
def on : Ccc → UInt8
  | svcChngd => 0x02
  | readData => 0x01

def flag (server : Server) : Ccc → Bool
  | svcChngd => server.svcChngdEnabled
  | readData => server.clockReadDataNotify

def read (offset : Nat) : Ccc → Access
  | svcChngd => .readSvcChngdCcc offset
  | readData => .readDataCcc offset

def write (offset : Nat) (value : Option (List UInt8)) : Ccc → Access
  | svcChngd => .writeSvcChngdCcc offset value
  | readData => .writeDataCcc offset value

/-- The offset and the bytes of an access, if it is a write to the CCC. -/
def written : Ccc → Access → Option (Nat × List UInt8)
  | svcChngd, .writeSvcChngdCcc offset (some value) => some (offset, value)
  | readData, .writeDataCcc offset (some value) => some (offset, value)
  | _, _ => none

/-- The writes that the callback accepts: two bytes at offset zero, the first
    of which is zero or sets the flag. -/
def Accepts (ccc : Ccc) (offset : Nat) (value : List UInt8) : Prop :=
  value.length = 2 ∧ offset = 0 ∧ (value.headD 0 = 0x00 ∨ value.headD 0 = ccc.on)

instance (ccc : Ccc) (offset : Nat) (value : List UInt8) :
    Decidable (ccc.Accepts offset value) :=
  inferInstanceAs (Decidable (_ ∧ _ ∧ _))

/-- The last successful write to the CCC in the connection, one access later,
    where `ok` says whether that access succeeds if it is a write. -/
def update (ccc : Ccc) (ok : Bool) (last : Option (List UInt8)) (i : Access) :
    Option (List UInt8) :=
  match i, ccc.written i with
  | .connect, _ => none
  | _, some (_, value) => if ok then some value else last
  | _, none => last

def accepted (ccc : Ccc) (i : Access) : Bool :=
  (ccc.written i).any fun w => decide (ccc.Accepts w.1 w.2)

/-- The last accepted write to the CCC in the connection that a list of
    accesses ends in, starting from a new connection. -/
def last (ccc : Ccc) (is : List Access) : Option (List UInt8) :=
  is.foldl (fun last i => ccc.update (ccc.accepted i) last i) none

/-- The last write to the CCC in the connection that was answered with
    success, as the answers of the run tell. -/
def answered (ccc : Ccc) (a : App) (last : Option (List UInt8)) : List Access →
    Option (List UInt8)
  | [] => last
  | i :: is =>
    let last := ccc.update (decide ((accessMachine.step a i).1 = [.written 0])) last i
    match (accessMachine.step a i).2 with
    | none => last
    | some a => answered ccc a last is

/-- The answer to a read at offset zero. -/
def reply (ccc : Ccc) (a : App) : List Reply := (accessMachine.step a (ccc.read 0)).1

end Ccc

/-- In the run of the given accesses the CCCs are registers: a read returns
    the two bytes of the last write to that CCC that was answered with
    success, or two zero bytes; a write that was answered with an error
    changes neither, and a write to one does not change the other. -/
structure FaithfulRegisters (a : App) (is : List Access) : Prop where
  reads : ∀ (ccc : Ccc) before after m, is = before ++ ccc.read 0 :: after →
    accessMachine.Reaches a before m →
    ccc.reply m = [.value ((ccc.answered a none before).getD [0x00, 0x00])]
  rejected : ∀ (ccc : Ccc) before offset value after m m' ecode,
    is = before ++ ccc.write offset value :: after → accessMachine.Reaches a before m →
    accessMachine.step m (ccc.write offset value) = ([.written ecode], some m') → ecode ≠ 0 →
    ∀ ccc' : Ccc, ccc'.reply m' = ccc'.reply m
  independent : ∀ (ccc : Ccc) before offset value after m m',
    is = before ++ ccc.write offset value :: after → accessMachine.Reaches a before m →
    (accessMachine.step m (ccc.write offset value)).2 = some m' →
    ∀ ccc' : Ccc, ccc' ≠ ccc → ccc'.reply m' = ccc'.reply m

section Writes

variable {ccc ccc' : Ccc} {a a' : App} {offset : Nat} {value : List UInt8}

/-- A read returns the flag as two bytes. -/
theorem reply_eq (ccc : Ccc) (a : App) :
    ccc.reply a = [.value [if ccc.flag a.server then ccc.on else 0x00, 0x00]] := by
  cases ccc with
  | svcChngd => rfl
  | readData => rfl

/-- An accepted write sets the flag to what its first byte says, and leaves
    the other one alone. -/
theorem write_accepted (a : App) (h : ccc.Accepts offset value) :
    ∃ a', accessMachine.step a (ccc.write offset (some value)) = ([.written 0], some a') ∧
      ccc.flag a'.server = decide (value.headD 0 = ccc.on) ∧
      ∀ ccc' : Ccc, ccc' ≠ ccc → ccc'.flag a'.server = ccc'.flag a.server := by
  -- Each callback writes to its own flag.
  cases ccc with
  | svcChngd =>
      refine ⟨{ a with server := { a.server with svcChngdEnabled := _ } }, ?_, rfl, ?_⟩
      · simp only [accessMachine, Ccc.write, gattSvcChngdCccWriteCb,
          cccWrite_accepted (show (0x02 : UInt8) ≠ 0x00 by decide) h]
        rfl
      · intro ccc' hne
        cases ccc' with
        | svcChngd => exact absurd rfl hne
        | readData => rfl
  | readData =>
      refine ⟨{ a with server := { a.server with clockReadDataNotify := _ } }, ?_, rfl, ?_⟩
      · simp only [accessMachine, Ccc.write, clockReadDataCccWriteCb,
          cccWrite_accepted (show (0x01 : UInt8) ≠ 0x00 by decide) h]
        rfl
      · intro ccc' hne
        cases ccc' with
        | svcChngd => rfl
        | readData => exact absurd rfl hne

/-- Any other write is answered with an error and changes nothing. -/
theorem write_rejected (a : App) (h : ¬ccc.Accepts offset value) :
    ∃ ecode, ecode ≠ 0 ∧
      accessMachine.step a (ccc.write offset (some value)) = ([.written ecode], some a) := by
  cases ccc with
  | svcChngd =>
      have hrej : ∃ ecode, ecode ≠ 0 ∧
          gattSvcChngdCccWriteCb a.server offset (some value) = (a.server, ecode) :=
        cccWrite_rejected h
      rcases hrej with ⟨ecode, hne, heq⟩
      exact ⟨ecode, hne, by simp only [accessMachine, Ccc.write, heq]⟩
  | readData =>
      have hrej : ∃ ecode, ecode ≠ 0 ∧
          clockReadDataCccWriteCb a.server offset (some value) = (a.server, ecode) :=
        cccWrite_rejected h
      rcases hrej with ⟨ecode, hne, heq⟩
      exact ⟨ecode, hne, by simp only [accessMachine, Ccc.write, heq]⟩

/-- So is a write without a value, which is how a prepared one begins. -/
theorem write_null (ccc : Ccc) (a : App) (offset : Nat) :
    accessMachine.step a (ccc.write offset none)
      = ([.written btAttErrorInvalidAttributeValueLen], some a) := by
  cases ccc with
  | svcChngd => rfl
  | readData => rfl

/-- A write that is answered with an error changes nothing. -/
theorem rejected_step {a a' : App} {value : Option (List UInt8)} {ecode : Nat}
    (hstep : accessMachine.step a (ccc.write offset value) = ([.written ecode], some a'))
    (hne : ecode ≠ 0) : a' = a := by
  cases value with
  | none =>
      rw [write_null] at hstep
      exact (Option.some.inj (Prod.mk.inj hstep).2).symm
  | some value =>
      by_cases h : ccc.Accepts offset value
      · rcases write_accepted a h with ⟨a'', heq, _⟩
        rw [heq, Prod.mk.injEq, List.cons.injEq, Reply.written.injEq] at hstep
        exact absurd hstep.1.1.symm hne
      · rcases write_rejected a h with ⟨ecode', _, heq⟩
        rw [heq] at hstep
        exact (Option.some.inj (Prod.mk.inj hstep).2).symm

/-- A write to one CCC does not change the flag of the other. -/
theorem flag_write_other {a a' : App} {value : Option (List UInt8)} (hne : ccc' ≠ ccc)
    (hstep : (accessMachine.step a (ccc.write offset value)).2 = some a') :
    ccc'.flag a'.server = ccc'.flag a.server := by
  cases value with
  | none =>
      rw [write_null, Option.some.injEq] at hstep
      rw [hstep]
  | some value =>
      by_cases h : ccc.Accepts offset value
      · rcases write_accepted a h with ⟨a'', heq, _, hother⟩
        rw [heq, Option.some.injEq] at hstep
        rw [← hstep]
        exact hother ccc' hne
      · rcases write_rejected a h with ⟨_, _, heq⟩
        rw [heq, Option.some.injEq] at hstep
        rw [hstep]

/-- The writes that are answered with success are the accepted ones. -/
theorem written_zero_iff (a : App) :
    (accessMachine.step a (ccc.write offset (some value))).1 = [.written 0] ↔
      ccc.Accepts offset value := by
  by_cases h : ccc.Accepts offset value
  · rcases write_accepted a h with ⟨a', heq, _⟩
    rw [heq]
    exact iff_of_true rfl h
  · rcases write_rejected a h with ⟨ecode, hne, heq⟩
    rw [heq]
    refine iff_of_false ?_ h
    intro hzero
    rw [List.cons.injEq, Reply.written.injEq] at hzero
    exact hne hzero.1

end Writes

section Runs

variable {ccc : Ccc} {a a' m : App} {i : Access} {is : List Access} {last : Option (List UInt8)}

theorem written_eq_some_iff {w : Nat × List UInt8} :
    ccc.written i = some w ↔ i = ccc.write w.1 (some w.2) := by
  rcases w with ⟨offset, value⟩
  cases ccc <;> cases i <;>
    simp only [Ccc.written, Ccc.write, reduceCtorEq, Access.writeSvcChngdCcc.injEq,
      Access.writeDataCcc.injEq]
  all_goals
    rename_i o v
    cases v <;> simp only [reduceCtorEq, and_false, Option.some.injEq, Prod.mk.injEq]

/-- Apart from new connections and writes to a CCC, no access changes the
    server structure. -/
theorem server_step (hstep : (accessMachine.step a i).2 = some a') (hconn : i ≠ .connect)
    (hwrite : ∀ (ccc : Ccc) offset value, i ≠ ccc.write offset value) :
    a'.server = a.server := by
  cases i with
  | connect => exact absurd rfl hconn
  | readSvcChngdCcc offset =>
      simp only [accessMachine, Option.some.injEq] at hstep
      rw [hstep]
  | writeSvcChngdCcc offset value => exact absurd rfl (hwrite .svcChngd offset value)
  | readDataCcc offset =>
      simp only [accessMachine, Option.some.injEq] at hstep
      rw [hstep]
  | writeDataCcc offset value => exact absurd rfl (hwrite .readData offset value)
  -- `clock_write_data_write_cb` changes the globals, or exits.
  | writeData offset value clock stack =>
      simp only [accessMachine] at hstep
      rcases hcb : clockWriteDataWriteCb stack clock a.server a.globals offset value with
        ⟨sent, _ | ⟨g, ecode⟩⟩
      · rw [hcb] at hstep
        exact absurd hstep (by simp only [reduceCtorEq, not_false_eq_true])
      · rw [hcb] at hstep
        simp only [Option.some.injEq] at hstep
        rw [← hstep]

/-- Only a write that is accepted is answered with success. -/
theorem update_answered (ccc : Ccc) (a : App) (last : Option (List UInt8)) (i : Access) :
    ccc.update (decide ((accessMachine.step a i).1 = [.written 0])) last i
      = ccc.update (ccc.accepted i) last i := by
  rcases hw : ccc.written i with _ | w
  · cases i <;> simp only [Ccc.update, hw]
  · have hi : i = ccc.write w.1 (some w.2) := written_eq_some_iff.mp hw
    have hok : decide ((accessMachine.step a i).1 = [.written 0]) = ccc.accepted i := by
      simp only [Ccc.accepted, hw, Option.any_some]
      rw [hi]
      exact decide_eq_decide.mpr (written_zero_iff a)
    rw [hok]

/-- As long as the process runs, the writes answered with success are the
    accepted ones. -/
theorem answered_eq (hr : accessMachine.Reaches a is m) :
    ccc.answered a last is = is.foldl (fun last i => ccc.update (ccc.accepted i) last i) last := by
  induction is generalizing a last with
  | nil => rfl
  | cons i is ih =>
      rcases reaches_cons_iff.mp hr with ⟨a', hstep, hrest⟩
      simp only [Ccc.answered, hstep, List.foldl_cons, update_answered]
      exact ih hrest

/-- The flag is what a write left behind: there was none and it is clear, or
    it was an accepted one and the flag says what its first byte says. -/
def Ccc.Tracks (ccc : Ccc) (server : Server) : Option (List UInt8) → Prop
  | none => ccc.flag server = false
  | some value => ccc.Accepts 0 value ∧ ccc.flag server = decide (value.headD 0 = ccc.on)

theorem tracks_fresh (ccc : Ccc) (server : Server) : ccc.Tracks server.fresh none := by
  cases ccc with
  | svcChngd => rfl
  | readData => rfl

/-- What the flag tracks depends on the flag only. -/
theorem tracks_congr {server server' : Server} (heq : ccc.flag server' = ccc.flag server)
    (h : ccc.Tracks server last) : ccc.Tracks server' last := by
  cases last with
  | none => exact heq.trans h
  | some value => exact ⟨h.1, heq.trans h.2⟩

theorem update_other (hconn : i ≠ .connect) (hnone : ccc.written i = none) (ok : Bool) :
    ccc.update ok last i = last := by
  cases i with
  | connect => exact absurd rfl hconn
  | _ => simp only [Ccc.update, hnone]

/-- A write to a CCC, accepted or not, keeps each flag in step. -/
theorem tracks_write {ccc' : Ccc} {offset : Nat} {value : Option (List UInt8)}
    (h : ccc.Tracks a.server last)
    (hstep : (accessMachine.step a (ccc'.write offset value)).2 = some a') :
    ccc.Tracks a'.server
      (ccc.update (ccc.accepted (ccc'.write offset value)) last (ccc'.write offset value)) := by
  have hconn : ccc'.write offset value ≠ .connect := by
    cases ccc' <;> exact Access.noConfusion
  -- The write is to this CCC, or to the other one.
  by_cases hne : ccc = ccc'
  · rw [← hne] at hstep hconn ⊢
    cases value with
    -- A NULL value is refused.
    | none =>
        have hnone : ccc.written (ccc.write offset none) = none := by
          cases ccc <;> rfl
        rw [write_null, Option.some.injEq] at hstep
        rw [update_other hconn hnone, ← hstep]
        exact h
    | some value =>
        have hsome : ccc.written (ccc.write offset (some value)) = some (offset, value) :=
          written_eq_some_iff.mpr rfl
        have hupd : ccc.update (ccc.accepted (ccc.write offset (some value))) last
            (ccc.write offset (some value)) = if ccc.Accepts offset value then some value else last
            := by
          simp only [Ccc.accepted, hsome, Option.any_some]
          cases ccc <;> simp only [Ccc.update, Ccc.write, Ccc.written, decide_eq_true_eq]
        rw [hupd]
        by_cases haccept : ccc.Accepts offset value
        · rcases write_accepted a haccept with ⟨a'', heq, hflag, _⟩
          rw [heq, Option.some.injEq] at hstep
          rw [if_pos haccept, ← hstep]
          exact ⟨⟨haccept.1, rfl, haccept.2.2⟩, hflag⟩
        · rcases write_rejected a haccept with ⟨ecode, _, heq⟩
          rw [heq, Option.some.injEq] at hstep
          rw [if_neg haccept, ← hstep]
          exact h
  · have hnone : ccc.written (ccc'.write offset value) = none := by
      cases ccc <;> cases ccc' <;> first | exact absurd rfl hne | rfl
    rw [update_other hconn hnone]
    exact tracks_congr (flag_write_other hne hstep) h

/-- One access keeps the flag in step with the last accepted write. -/
theorem tracks_step (h : ccc.Tracks a.server last) (hstep : (accessMachine.step a i).2 = some a') :
    ccc.Tracks a'.server (ccc.update (ccc.accepted i) last i) := by
  by_cases hconn : i = .connect
  · rw [hconn] at hstep ⊢
    simp only [accessMachine, Option.some.injEq] at hstep
    rw [← hstep]
    exact tracks_fresh ccc a.server
  · by_cases hw : ∃ (ccc' : Ccc) (offset : Nat) (value : Option (List UInt8)),
        i = ccc'.write offset value
    · rcases hw with ⟨ccc', offset, value, hi⟩
      rw [hi] at hstep ⊢
      exact tracks_write h hstep
    · -- Anything else leaves the server structure alone.
      have hnw : ∀ (ccc' : Ccc) offset value, i ≠ ccc'.write offset value := by
        intro ccc' offset value hi
        exact hw ⟨ccc', offset, value, hi⟩
      have hnone : ccc.written i = none := by
        rcases hsome : ccc.written i with _ | w
        · rfl
        · exact absurd (written_eq_some_iff.mp hsome) (hnw ccc w.1 (some w.2))
      rw [update_other hconn hnone, server_step hstep hconn hnw]
      exact h

/-- After every run from a new connection the flag is what the last accepted
    write left behind. -/
theorem tracks_reaches (hr : accessMachine.Reaches { a with server := a.server.fresh } is m) :
    ccc.Tracks m.server (ccc.last is) := by
  -- The fold over the run has to start from any value.
  have hgen : ∀ (is : List Access) (a : App) (last : Option (List UInt8)),
      ccc.Tracks a.server last → accessMachine.Reaches a is m →
      ccc.Tracks m.server
        (is.foldl (fun last i => ccc.update (ccc.accepted i) last i) last) := by
    intro is
    induction is with
    | nil =>
        intro a last h hr
        rw [reaches_nil_iff] at hr
        rw [← hr]
        exact h
    | cons i is ih =>
        intro a last h hr
        rcases reaches_cons_iff.mp hr with ⟨a', hstep, hrest⟩
        exact ih a' _ (tracks_step h hstep) hrest
  exact hgen is _ none (tracks_fresh ccc a.server) hr

/-- A read returns the bytes last written exactly if the second of them, which
    the server does not keep, is zero. -/
theorem reply_last_iff (h : ccc.Tracks m.server last) :
    ccc.reply m = [.value (last.getD [0x00, 0x00])] ↔
      ∀ value, last = some value → value.getD 1 0x00 = 0x00 := by
  rw [reply_eq]
  cases last with
  | none =>
      have hflag : ccc.flag m.server = false := h
      rw [hflag]
      refine iff_of_true rfl ?_
      intro value hvalue
      exact absurd hvalue (by simp only [reduceCtorEq, not_false_eq_true])
  | some value =>
      rcases h with ⟨⟨hlen, _, hfirst⟩, hflag⟩
      rcases List.length_eq_two.mp hlen with ⟨x, y, hxy⟩
      rw [hxy] at hfirst hflag ⊢
      have hfirst' : x = 0x00 ∨ x = ccc.on := hfirst
      have hflag' : ccc.flag m.server = decide (x = ccc.on) := hflag
      -- The flag keeps the first byte, and the second is always read as zero.
      have hx : (if ccc.flag m.server then ccc.on else 0x00) = x := by
        by_cases hon : x = ccc.on
        · rw [hflag', if_pos (decide_eq_true hon), hon]
        · rw [hflag', decide_eq_false hon, hfirst'.resolve_right hon]
          rfl
      rw [hx]
      simp only [List.cons.injEq, Reply.value.injEq, Option.getD_some, true_and, and_true,
        Option.some.injEq, forall_eq', List.getD_cons_succ, List.getD_cons_zero]
      exact eq_comm

end Runs

/-- In exactly the runs in which no CCC is read while the second byte of the
    last accepted write to it is not zero, the CCCs are registers. -/
theorem faithfulRegisters_iff (a : App) (is : List Access) :
    FaithfulRegisters { a with server := a.server.fresh } is ↔
      ∀ (ccc : Ccc) before after m, is = before ++ ccc.read 0 :: after →
        accessMachine.Reaches { a with server := a.server.fresh } before m →
        ∀ value, ccc.last before = some value → value.getD 1 0x00 = 0x00 := by
  constructor
  · intro h ccc before after m heq hr
    have hread := h.reads ccc before after m heq hr
    rw [answered_eq hr] at hread
    exact (reply_last_iff (tracks_reaches hr)).mp hread
  · intro h
    refine ⟨?_, ?_, ?_⟩
    · intro ccc before after m heq hr
      rw [answered_eq hr]
      exact (reply_last_iff (tracks_reaches hr)).mpr (h ccc before after m heq hr)
    · intro ccc before offset value after m m' ecode _ _ hstep hne ccc'
      rw [rejected_step hstep hne]
    · intro ccc before offset value after m m' _ _ hstep ccc' hne
      rw [reply_eq, reply_eq, flag_write_other hne hstep]

/-- A client writes two bytes of one to a CCC, is told that it succeeded, and
    reads one and zero. -/
theorem second_byte_lost :
    ¬FaithfulRegisters ⟨⟨10, false, 14, 18, false⟩, Globals.init 0⟩
      [.writeDataCcc 0 (some [0x01, 0x01]), .readDataCcc 0] := by
  intro h
  have hread := h.reads .readData [.writeDataCcc 0 (some [0x01, 0x01])] []
    ⟨⟨10, false, 14, 18, true⟩, Globals.init 0⟩ rfl rfl
  exact absurd hread (by decide)

end Wallclock
