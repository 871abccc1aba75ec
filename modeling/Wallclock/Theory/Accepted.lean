import Mathlib.Data.ENat.Basic
import Wallclock.Theory.Calls
import Wallclock.Theory.Transport

/-!
# What Is Accepted

The operations that a bearer accepts in a run, and so those it sends.

`bt_att_send` numbers operations with a 32-bit counter that skips zero, and
`bt_att_cancel` finds an operation by its number alone. `number` is the number
of the operation accepted after `k` others, so no two of `2 ^ 32 - 1`
operations in a row have the same. `Takes` is the law that says so of every
call, and with it what `encode_pdu` checks: as long as nobody asks for an MTU
over a bound, no PDU exceeds the bound. The length that `encode_pdu` computes has
16 bits. A payload of 65535 bytes makes it zero, and then the PDU does not even
have an opcode; `AttCall.Within` excludes that.

An operation is sent with the PDU that was accepted (`sent_accepted`), so what
holds of all that is accepted holds of all that is sent.

## Main definitions

* `number`, `serial`: The numbers of operations.
* `Packet.Formed`: What is encoded.
* `Takes`: The law.

## Theorems

* `toNat_number`, `number_injOn`: Numbers that are close differ.
* `serial_next`: The counter skips zero.
* `Takes.trans`, `packetIn_idle`, `packetIn_plain`: Events that accept nothing.
* `takes_accepts`, `takes_law`, `takes_quiet`: Calls, and everything else, obey
  the law.
* `takes_step`, `takes_run`: So do the steps.
* `accepted_numbers`: The operations of a run are numbered in order.
* `sent_mem`, `sent_accepted`: What is sent has been accepted.
* `sent_formed`, `sent_formed_confirmation`: What is sent is a PDU of a known
  type within the MTU.
-/

namespace Wallclock

variable {ε σ κ δ : Type*}

/-- The number of the operation that is accepted after `k` others. -/
def number (k : ℕ) : BitVec 32 := BitVec.ofNat 32 (k % (2 ^ 32 - 1) + 1)

/-- The counter after `k` operations. -/
def serial : ℕ → BitVec 32
  | 0 => 0
  | k + 1 => number k + 1

/-- What `encode_pdu` makes of a PDU: it starts with its opcode, has the type that
    belongs to it, and is at most this long. -/
structure Packet.Formed (M : ℕ∞) (p : Packet) : Prop where
  type : ∃ opcode rest, p.pdu = opcode :: rest ∧ p.type = getOpType opcode
  known : p.type ≠ .unknown
  length : (p.pdu.length : ℕ∞) ≤ M

theorem toNat_number (k : ℕ) : (number k).toNat = k % (2 ^ 32 - 1) + 1 := by
  rw [number, BitVec.toNat_ofNat]
  have hlt := Nat.mod_lt k (show 0 < 2 ^ 32 - 1 by decide)
  omega

/-- Of `2 ^ 32 - 1` operations in a row no two have the same number. -/
theorem number_injOn {j k : ℕ} (hjk : j < k) (hclose : k < j + (2 ^ 32 - 1)) :
    number j ≠ number k := by
  intro heq
  have hnat := congrArg BitVec.toNat heq
  rw [toNat_number, toNat_number] at hnat
  omega

/-- The counter skips zero. -/
theorem serial_next (k : ℕ) : (if serial k < 1 then 1 else serial k) = number k := by
  cases k with
  | zero => rfl
  | succ k =>
      have hk := toNat_number k
      have hserial : (serial (k + 1)).toNat = (k % (2 ^ 32 - 1) + 2) % 2 ^ 32 := by
        rw [serial, BitVec.toNat_add, hk]
        rfl
      have hlt := Nat.mod_lt k (show 0 < 2 ^ 32 - 1 by decide)
      apply BitVec.eq_of_toNat_eq
      rw [toNat_number]
      by_cases hlast : k % (2 ^ 32 - 1) = 2 ^ 32 - 2
      · -- The counter has come round to zero.
        rw [hlast] at hserial
        rw [if_pos (by rw [BitVec.lt_def, hserial]; decide)]
        change 1 = _
        omega
      · rw [if_neg (by rw [BitVec.lt_def, hserial]; change ¬_ < 1; omega), hserial]
        omega

/-- The operations that are accepted are numbered from the counter on, and keep
    to the MTU. -/
structure Takes (M : ℕ∞) (att : Bearer κ δ) (es : List (BearerEvent κ δ)) (att' : Bearer κ δ) :
    Prop where
  numbers : ∀ k, att.nextSendId = serial k → (es.filterMap BearerEvent.packetIn).map Packet.id =
    (List.range' k (es.filterMap BearerEvent.packetIn).length).map number
  counter : ∀ k, att.nextSendId = serial k →
    att'.nextSendId = serial (k + (es.filterMap BearerEvent.packetIn).length)
  mtu : (att.mtu : ℕ∞) ≤ M → (att'.mtu : ℕ∞) ≤ M
  formed : M ≠ ⊤ → (att.mtu : ℕ∞) ≤ M → ∀ p ∈ es.filterMap BearerEvent.packetIn, p.Formed M

/-- A call that does not ask for a larger MTU, and sends no PDU whose length could
    wrap. Where there is no bound on the MTU, any call will do. -/
def AttCall.Within (M : ℕ∞) (call : AttCall κ δ) : Prop :=
  M ≠ ⊤ → call.Short ∧ ∀ mtu, call = .setMtu mtu → (mtu : ℕ∞) ≤ M

/-- What accepts nothing. -/
theorem takes_quiet {M : ℕ∞} {att att' : Bearer κ δ} {es : List (BearerEvent κ δ)}
    (hes : es.filterMap BearerEvent.packetIn = []) (hid : att'.nextSendId = att.nextSendId)
    (hmtu : (att.mtu : ℕ∞) ≤ M → (att'.mtu : ℕ∞) ≤ M) : Takes M att es att' := by
  refine ⟨fun k _ => ?_, fun k hk => ?_, hmtu, fun _ _ p hp => ?_⟩
  · rw [hes]
    rfl
  · rw [hes, hid]
    exact hk
  · rw [hes] at hp
    exact absurd hp List.not_mem_nil

theorem Takes.trans {M : ℕ∞} {a b c : Bearer κ δ} {es es' : List (BearerEvent κ δ)}
    (h : Takes M a es b) (h' : Takes M b es' c) : Takes M a (es ++ es') c := by
  refine ⟨fun k hk => ?_, fun k hk => ?_, fun hM => h'.mtu (h.mtu hM), fun htop hM p hp => ?_⟩
  · rw [List.filterMap_append, List.map_append, h.numbers k hk, h'.numbers _ (h.counter k hk),
      ← List.map_append, List.range'_append_1, List.length_append]
  · rw [List.filterMap_append, List.length_append, ← Nat.add_assoc]
    exact h'.counter _ (h.counter k hk)
  · rw [List.filterMap_append] at hp
    exact (List.mem_append.mp hp).elim (h.formed htop hM p) (h'.formed htop (h.mtu hM) p)

theorem packetIn_idle {es : List (BearerEvent κ δ)} (h : ∀ e ∈ es, e.Idle) :
    es.filterMap BearerEvent.packetIn = [] := by
  rw [List.filterMap_eq_nil_iff]
  intro e he
  cases e with
  | accepted op => exact (h _ he).elim
  | _ => rfl

theorem packetIn_plain {es : List (BearerEvent κ δ)} (h : ∀ e ∈ es, e.Plain) :
    es.filterMap BearerEvent.packetIn = [] := by
  rw [List.filterMap_eq_nil_iff]
  intro e he
  cases e with
  | accepted op => exact (h _ he).elim
  | _ => rfl

/-- One operation is accepted. -/
theorem takes_accepts {M : ℕ∞} {att : Bearer κ δ} {op : AttSendOp κ δ} (h : att.Accepts op)
    (hhead : M ≠ ⊤ → op.pdu.head? = some op.opcode) :
    Takes M att [.accepted op]
      ({ att with nextSendId := op.id + 1 }.enqueue op).wakeupWriter := by
  have hfields : ({ att with nextSendId := op.id + 1 }.enqueue op).wakeupWriter.nextSendId =
      op.id + 1 ∧ ({ att with nextSendId := op.id + 1 }.enqueue op).wakeupWriter.mtu = att.mtu := by
    have henqueue : ({ att with nextSendId := op.id + 1 }.enqueue op).nextSendId = op.id + 1 ∧
        ({ att with nextSendId := op.id + 1 }.enqueue op).mtu = att.mtu := by
      rw [Bearer.enqueue]
      cases op.type <;> exact ⟨rfl, rfl⟩
    rcases Bearer.wakeupWriter_cases ({ att with nextSendId := op.id + 1 }.enqueue op) with
      heq | ⟨_, heq⟩ <;> rw [heq] <;> exact henqueue
  have hid (k : ℕ) (hk : att.nextSendId = serial k) : op.id = number k := by
    rw [h.id, hk]
    exact serial_next k
  refine ⟨fun k hk => ?_, fun k hk => ?_, fun hM => ?_, fun htop hM p hp => ?_⟩
  · exact congrArg (fun id => [id]) (hid k hk)
  · rw [hfields.1, hid k hk]
    rfl
  · rw [hfields.2]
    exact hM
  · rw [List.mem_singleton.mp hp]
    refine ⟨?_, h.known, (Nat.cast_le.mpr h.length).trans hM⟩
    have hfirst := hhead htop
    rcases hpdu : op.pdu with _ | ⟨opcode, rest⟩
    · rw [hpdu] at hfirst
      exact absurd hfirst.symm (Option.some_ne_none op.opcode)
    · rw [hpdu, List.head?_cons, Option.some.injEq] at hfirst
      exact ⟨opcode, rest, hpdu, hfirst ▸ h.type⟩

theorem takes_law (M : ℕ∞) : Law (AttCall.Within M) (@Takes κ δ M) where
  nil att := takes_quiet rfl rfl id
  trans := Takes.trans
  perform att call hwithin := by
    have heffect := Bearer.perform_effect att call
    generalize (att.perform call).1 = es, (att.perform call).2 = att' at heffect ⊢
    cases heffect with
    | accepts es op hes h hhead =>
        have hidle : Takes M att es att := takes_quiet (packetIn_idle hes) rfl id
        exact hidle.trans (takes_accepts h fun htop => hhead (hwithin htop).1)
    | less _ _ hes hless hmtu =>
        refine takes_quiet (packetIn_idle hes) hless.nextSendId fun hM => ?_
        rcases hmtu with hsame | ⟨hcall, _⟩
        · rw [hsame]
          exact hM
        · by_cases htop : M = ⊤
          · rw [htop]
            exact le_top
          · exact (hwithin htop).2 _ hcall
  call att call := takes_quiet rfl rfl id
  free att op := takes_quiet (packetIn_idle (Bearer.idle_free op)) rfl id

section Runs

variable {U : UpperLayer ε σ κ δ} {M : ℕ∞}

/-- The steps of a bearer obey the law. -/
theorem takes_step (hU : U.Calls (AttCall.Within M)) {w w' : Endpoint σ κ δ}
    (i : BearerInput ε κ δ) (hi : ∀ call, i = .call call → call.Within M)
    (h : ((bearerMachine U).step w i).2 = some w') :
    Takes M w.att ((bearerMachine U).step w i).1 w'.att :=
  (takes_law M).step (fun _ _ _ hes hid hmtu _ _ => takes_quiet (packetIn_plain hes) hid
      fun hM => hmtu ▸ hM)
    hU (fun _ _ _ => takes_quiet rfl rfl id) (fun _ _ => takes_quiet rfl rfl id)
    (fun _ _ => takes_quiet rfl rfl id) (fun opcode pdu hpdu _ => ⟨by
      rw [AttCall.Short, hpdu]
      decide, fun _ heq => nomatch heq⟩) w w' i hi h

theorem takes_run (hU : U.Calls (AttCall.Within M)) (is : List (BearerInput ε κ δ))
    (his : ∀ call, .call call ∈ is → call.Within M) (w : Endpoint σ κ δ) :
    ∃ att', Takes M w.att ((bearerMachine U).run w is).1 att' := by
  induction is generalizing w with
  | nil => exact ⟨w.att, takes_quiet rfl rfl id⟩
  | cons i is ih =>
      rcases hm : (bearerMachine U).step w i with ⟨out, _ | w'⟩
      · rw [StepMachine.run_cons_stop _ hm]
        have hout : out = w.att.btAttUnref := by
          rw [step_stop (congrArg Prod.snd hm)] at hm
          exact (congrArg Prod.fst hm).symm
        rw [hout]
        exact ⟨w.att, takes_quiet (packetIn_plain (btAttUnref_events w.att)) rfl id⟩
      · rw [StepMachine.run_cons_go _ hm]
        have hfirst := takes_step hU i (fun call hcall => his call (hcall ▸ List.mem_cons_self))
          (congrArg Prod.snd hm)
        rw [hm] at hfirst
        rcases ih (fun call hcall => his call (List.mem_cons_of_mem i hcall)) w' with ⟨att', hrest⟩
        exact ⟨att', hfirst.trans hrest⟩

variable (ioOnL2cap : Bool) (mtu : ℕ) (crypto : Option AfAlg) (upper : σ)
  (is : List (BearerInput ε κ δ))

/-- The operations of a run are numbered in the order in which they are accepted. -/
theorem accepted_numbers (is : List (BearerInput ε κ δ)) :
    let out := ((bearerMachine U).run (Endpoint.fresh ioOnL2cap mtu crypto upper) is).1
    (out.filterMap BearerEvent.packetIn).map Packet.id =
      (List.range (out.filterMap BearerEvent.packetIn).length).map number := by
  have hany (call : AttCall κ δ) : call.Within ⊤ := fun htop => absurd rfl htop
  rcases takes_run (U := U) (fun _ _ _ _ call _ => hany call) is (fun call _ => hany call)
    (Endpoint.fresh ioOnL2cap mtu crypto upper) with ⟨_, htakes⟩
  have hnumbers := htakes.numbers 0 rfl
  rwa [← List.range_eq_range'] at hnumbers

/-- An operation that is sent is one that the bearer has. -/
theorem sent_mem {L L' : Life κ δ} {es : List (BearerEvent κ δ)} (h : Move L es L') {p : Packet}
    (hsent : .sent p ∈ es) : p ∈ L.packets := by
  have hdestroy (destroy : Option δ) :
      BearerEvent.sent p ∉ (destroyEvents destroy : List (BearerEvent κ δ)) :=
    sent_notMem_destroyEvents destroy p
  cases h with
  | sendReq op r _ _ h =>
      rw [BearerEvent.sent.inj (List.mem_singleton.mp hsent)]
      simp [Life.packets, Life.total, h]
  | sendInd op r _ _ h =>
      rw [BearerEvent.sent.inj (List.mem_singleton.mp hsent)]
      simp [Life.packets, Life.total, h]
  | sendWrite op r _ h =>
      rw [BearerEvent.sent.inj (List.mem_singleton.mp hsent)]
      simp [Life.packets, Life.total, h]
  | cancelReq op h => exact absurd hsent (hdestroy op.destroy)
  | cancelInd op h => exact absurd hsent (hdestroy op.destroy)
  | release destroy handlers h => exact absurd hsent (hdestroy destroy)
  | free op limbo h =>
      rcases List.mem_append.mp hsent with hfirst | hlast
      · exact absurd hfirst (hdestroy op.destroy)
      · cases List.mem_singleton.mp hlast
  | retry op e hresponse h =>
      rw [← List.mem_singleton.mp hsent] at hresponse
      exact hresponse.elim
  | neutral e h =>
      rw [← List.mem_singleton.mp hsent] at h
      exact h.elim
  | accept op => cases List.mem_singleton.mp hsent
  | answerReq => cases List.mem_singleton.mp hsent
  | answerInd => cases List.mem_singleton.mp hsent
  | answer => cases List.mem_singleton.mp hsent
  | hold => cases List.mem_singleton.mp hsent
  | _ => exact absurd hsent List.not_mem_nil

/-- What is sent has been accepted before, with the same PDU. -/
theorem sent_accepted {before after : List (BearerEvent κ δ)} {p : Packet}
    (hrun : ((bearerMachine U).run (Endpoint.fresh ioOnL2cap mtu crypto upper) is).1 =
      before ++ .sent p :: after) : p ∈ before.filterMap BearerEvent.packetIn := by
  rcases (fresh_path U ioOnL2cap mtu crypto upper is).exists_move hrun with
    ⟨M, M', first, _, earlier, later, hfirst, hmove, _, hbefore, _⟩
  have hmem := sent_mem hmove (List.mem_append_right _ List.mem_cons_self)
  -- What the bearer has then was accepted before.
  have hbooks := path_packets hfirst
  have hempty : (Life.empty : Life κ δ).packets = 0 := rfl
  rw [hempty, zero_add] at hbooks
  have hfirst : p ∈ (↑(first.filterMap BearerEvent.packetIn) : Multiset Packet) := by
    rw [hbooks]
    exact Multiset.mem_add.mpr (Or.inr hmem)
  rw [hbefore, List.filterMap_append]
  exact List.mem_append_left _ hfirst

/-- If nobody asks for an MTU over a bound or sends a PDU whose length could wrap,
    whatever is sent is a PDU of a known type, and no longer than that. -/
theorem sent_formed {M : ℕ} (hU : U.Calls (AttCall.Within M)) (hmtu : mtu ≤ M)
    (his : ∀ call, .call call ∈ is → call.Within M) {p : Packet}
    (hsent : .sent p ∈
      ((bearerMachine U).run (Endpoint.fresh ioOnL2cap mtu crypto upper) is).1) : p.Formed M := by
  rcases takes_run hU is his (Endpoint.fresh ioOnL2cap mtu crypto upper) with ⟨_, htakes⟩
  rcases List.append_of_mem hsent with ⟨before, after, hrun⟩
  refine htakes.formed (ENat.natCast_ne_top M) (Nat.cast_le.mpr hmtu) p ?_
  have haccepted := sent_accepted ioOnL2cap mtu crypto upper is hrun
  rw [hrun, List.filterMap_append]
  exact List.mem_append_left _ haccepted

theorem sent_formed_confirmation :
    (⟨1, .conf, [0x1e]⟩ : Packet).Formed (23 : ℕ) := by
  have hcall {c : AttCall ℕ ℕ} {U : UpperLayer Unit Unit ℕ ℕ} (hU : U = UpperLayer.idle)
      {env upper att call} (hc : c ∈ (U.react env upper att call).2) : c.Within (23 : ℕ) := by
    rw [hU] at hc
    exact absurd hc List.not_mem_nil
  refine sent_formed true 23 none () [.call (.send 0x1e [] none none default), .writable () true]
    (fun _ _ _ _ _ hc => hcall rfl hc) (le_refl 23) (fun call hmem => ?_)
    (List.mem_cons_of_mem _ List.mem_cons_self)
  rcases List.mem_cons.mp hmem with heq | hrest
  · rw [BearerInput.call.inj heq]
    exact fun _ => ⟨show 1 + btAttSignatureLen + 0 < 2 ^ 16 by decide, fun _ hcall => nomatch hcall⟩
  · exact nomatch List.mem_singleton.mp hrest

end Runs

end Wallclock
