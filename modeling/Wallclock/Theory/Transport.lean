import Mathlib.Data.Multiset.OrderedMonoid
import Wallclock.Theory.Bearer

/-!
# The Laws of the Transport

What holds of every run of the bearer, whatever the layer above does in its
callbacks.

The run is a path of moves (`bearer_path`), so the laws of the moves are laws
of the run. The books say that nothing is freed twice or forgotten: the
packets of the operations that `bt_att_send` accepted are those it has freed
and those it still has, and the same for the destroy functions. The last
reference leaves nothing behind. A callback is called at most once, as its
call takes it off the books as well.

## Main definitions

* `Bearer.ops`: The operations that a bearer has.
* `BearerEvent.packetIn`, `BearerEvent.packetOut`, `BearerEvent.fnIn`,
  `BearerEvent.fnOut`, `BearerEvent.armed`: What events put on the books, and
  take off them.
* `Endpoint.fresh`: A new bearer.
* `UpperLayer.idle`: A layer that makes no calls.
* `Life.packets`, `Life.fns`: What is on the books.

## Theorems

* `sum_toList`: A sum of multisets that have one element at most.
* `total_ops`: The operations, wherever they are.
* `empty_typed`, `fresh_path`: The run of a new bearer.
* `packets_life`, `fns_life`, `path_packets`, `path_fns`: The books of packets
  and of destroy functions.
* `released_exactly`: What is accepted is freed once.
* `destroyed_exactly`: What is handed over is destroyed once.
* `answered_at_most_once`: What is handed over is called at most once.
* `one_at_a_time`, `one_at_a_time_reads`: One request and one indication are outstanding at most.
* `first_in_first_out`: The order in which operations are sent.
-/

namespace Wallclock

variable {ε σ κ δ : Type*}

/-- The operations that the bearer has. -/
def Bearer.ops (att : Bearer κ δ) : List (AttSendOp κ δ) :=
  att.reqQueue ++ att.indQueue ++ att.writeQueue ++ att.pendingReq.toList ++
    att.pendingInd.toList

/-- The destroy functions that the bearer has. -/
def Bearer.fns (att : Bearer κ δ) : Multiset δ :=
  ↑(att.ops.filterMap AttSendOp.destroy) + att.handlers

namespace BearerEvent

/-- The packet that is accepted. -/
def packetIn : BearerEvent κ δ → Option Packet
  | .accepted op => some op.packet
  | _ => none

/-- The packet that is freed. -/
def packetOut : BearerEvent κ δ → Option Packet
  | .freed packet => some packet
  | _ => none

/-- The destroy function that is handed over. -/
def fnIn : BearerEvent κ δ → Option δ
  | .accepted op => op.destroy
  | .registered destroy => destroy
  | _ => none

/-- The destroy function that is called. -/
def fnOut : BearerEvent κ δ → Option δ
  | .destroyed destroy => some destroy
  | _ => none

/-- The callback that is handed over with an operation. -/
def armed : BearerEvent κ δ → Option κ
  | .accepted op => op.callback
  | _ => none

end BearerEvent

/-- A bearer on a new socket. -/
def Endpoint.fresh (ioOnL2cap : Bool) (mtu : ℕ) (crypto : Option AfAlg) (upper : σ) :
    Endpoint σ κ δ :=
  ⟨Bearer.new ioOnL2cap mtu crypto, upper⟩

/-- A layer that makes no calls. -/
def UpperLayer.idle : UpperLayer Unit Unit ℕ ℕ := ⟨fun _ _ _ _ => ((), [])⟩

theorem sum_toList {α ο : Type*} (f : ο → Option α) (es : List ο) :
    (es.map fun e => (↑(f e).toList : Multiset α)).sum = ↑(es.filterMap f) := by
  induction es with
  | nil => rfl
  | cons e es ih =>
      rw [List.map_cons, List.sum_cons, ih]
      cases h : f e with
      | none =>
          rw [List.filterMap_cons_none h]
          exact zero_add _
      | some x =>
          rw [List.filterMap_cons_some h]
          rfl

theorem total_ops {A : Type*} [AddCommMonoid A] (f : AttSendOp κ δ → A) (att : Bearer κ δ) :
    (att.life 0).total f = (att.ops.map f).sum := by
  simp only [Life.total, Bearer.life, Bearer.ops, List.map_append, List.sum_append,
    Multiset.map_zero, Multiset.sum_zero]
  cases att.pendingReq <;> cases att.pendingInd <;> simp <;> abel

theorem empty_typed : (Life.empty : Life κ δ).Typed := by
  refine ⟨?_, ?_, ?_, ?_, ?_⟩ <;> intro op h
  · exact absurd h List.not_mem_nil
  · exact absurd h.symm (Option.some_ne_none op)
  · exact absurd h List.not_mem_nil
  · exact absurd h.symm (Option.some_ne_none op)
  · exact absurd h List.not_mem_nil

/-- The packets of the operations, wherever they are. -/
def Life.packets (L : Life κ δ) : Multiset Packet := L.total fun op => {op.packet}

/-- The destroy functions of the operations and the handlers. -/
def Life.fns (L : Life κ δ) : Multiset δ := L.total (fun op => ↑op.destroy.toList) + L.handlers

theorem packets_life (att : Bearer κ δ) :
    (att.life 0).packets = ↑(att.ops.map AttSendOp.packet) := by
  have hsum := sum_toList (some ∘ AttSendOp.packet) att.ops
  rw [List.filterMap_eq_map] at hsum
  rw [Life.packets, total_ops]
  exact hsum

theorem fns_life (att : Bearer κ δ) : (att.life 0).fns = att.fns := by
  rw [Life.fns, total_ops, sum_toList, Bearer.fns]
  rfl

/-- The packets on the books of a path. -/
theorem path_packets {L L' : Life κ δ} {es : List (BearerEvent κ δ)} (h : Moves Move L es L') :
    L.packets + ↑(es.filterMap BearerEvent.packetIn) =
      ↑(es.filterMap BearerEvent.packetOut) + L'.packets := by
  -- On these books an operation is worth its packet, and a function nothing.
  have hworth (op : AttSendOp κ δ) :
      op.worth (fun p => ({p} : Multiset Packet)) (fun _ => 0) = {op.packet} := by
    rw [AttSendOp.worth]
    cases op.destroy <;> exact add_zero _
  have hin (e : BearerEvent κ δ) :
      income (fun p => ({p} : Multiset Packet)) (fun _ => 0) e = ↑e.packetIn.toList := by
    cases e with
    | accepted op => exact hworth op
    | registered destroy => cases destroy <;> rfl
    | _ => rfl
  have hout (e : BearerEvent κ δ) :
      expense (fun p => ({p} : Multiset Packet)) (fun _ => 0) e = ↑e.packetOut.toList := by
    cases e <;> rfl
  have hheld (L : Life κ δ) : L.held (fun p => ({p} : Multiset Packet)) (fun _ => 0) =
      L.packets := by
    rw [Life.held, funext hworth, Multiset.sum_map_zero, add_zero, Life.packets]
  have hbooks := h.balance fun _ _ _ hmove =>
    hmove.balance (fun p => ({p} : Multiset Packet)) fun _ => 0
  rwa [funext hin, funext hout, sum_toList, sum_toList, hheld, hheld] at hbooks

/-- The destroy functions on the books of a path. -/
theorem path_fns {L L' : Life κ δ} {es : List (BearerEvent κ δ)} (h : Moves Move L es L') :
    L.fns + ↑(es.filterMap BearerEvent.fnIn) = ↑(es.filterMap BearerEvent.fnOut) + L'.fns := by
  have hcoe (destroy : Option δ) : destroy.elim 0 (fun d => ({d} : Multiset δ)) =
      ↑destroy.toList := by
    cases destroy <;> rfl
  have hworth (op : AttSendOp κ δ) :
      op.worth (fun _ => 0) (fun d => ({d} : Multiset δ)) = ↑op.destroy.toList := by
    rw [AttSendOp.worth, hcoe, zero_add]
  have hin (e : BearerEvent κ δ) :
      income (fun _ => 0) (fun d => ({d} : Multiset δ)) e = ↑e.fnIn.toList := by
    cases e with
    | accepted op => exact hworth op
    | registered destroy => exact hcoe destroy
    | _ => rfl
  have hout (e : BearerEvent κ δ) :
      expense (fun _ => 0) (fun d => ({d} : Multiset δ)) e = ↑e.fnOut.toList := by
    cases e <;> rfl
  have hheld (L : Life κ δ) : L.held (fun _ => 0) (fun d => ({d} : Multiset δ)) = L.fns := by
    rw [Life.held, funext hworth, Multiset.sum_map_singleton, Life.fns]
  have hbooks := h.balance fun _ _ _ hmove =>
    hmove.balance (fun _ => 0) fun d => ({d} : Multiset δ)
  rwa [funext hin, funext hout, sum_toList, sum_toList, hheld, hheld] at hbooks

section Runs

variable (U : UpperLayer ε σ κ δ) (ioOnL2cap : Bool) (mtu : ℕ) (crypto : Option AfAlg) (upper : σ)
  (is : List (BearerInput ε κ δ))

/-- A run of a new bearer is a path from a life without operations. -/
theorem fresh_path : Moves Move Life.empty
    ((bearerMachine U).run (Endpoint.fresh ioOnL2cap mtu crypto upper) is).1
    (((bearerMachine U).run (Endpoint.fresh ioOnL2cap mtu crypto upper) is).2.elim Life.empty
      fun w => w.att.life 0) :=
  bearer_path (w := Endpoint.fresh ioOnL2cap mtu crypto upper) empty_typed is

/-- Every operation that is accepted is freed once, or the bearer has it still. -/
theorem released_exactly (is : List (BearerInput ε κ δ)) :
    let r := (bearerMachine U).run (Endpoint.fresh ioOnL2cap mtu crypto upper) is
    (↑(r.1.filterMap BearerEvent.packetIn) : Multiset Packet) =
      ↑(r.1.filterMap BearerEvent.packetOut) +
        r.2.elim 0 fun w => ↑(w.att.ops.map AttSendOp.packet) := by
  intro r
  have hpath : Moves Move Life.empty r.1 (r.2.elim Life.empty fun w => w.att.life 0) :=
    fresh_path U ioOnL2cap mtu crypto upper is
  have hbooks := path_packets hpath
  have hempty : (Life.empty : Life κ δ).packets = 0 := rfl
  rw [hempty, zero_add] at hbooks
  rw [hbooks]
  cases r.2 with
  | none => rfl
  | some w => rw [Option.elim_some, Option.elim_some, packets_life]

/-- Every destroy function that is handed over is called once, or the bearer has
    it still. -/
theorem destroyed_exactly (is : List (BearerInput ε κ δ)) :
    let r := (bearerMachine U).run (Endpoint.fresh ioOnL2cap mtu crypto upper) is
    (↑(r.1.filterMap BearerEvent.fnIn) : Multiset δ) =
      ↑(r.1.filterMap BearerEvent.fnOut) + r.2.elim 0 fun w => w.att.fns := by
  intro r
  have hpath : Moves Move Life.empty r.1 (r.2.elim Life.empty fun w => w.att.life 0) :=
    fresh_path U ioOnL2cap mtu crypto upper is
  have hbooks := path_fns hpath
  have hempty : (Life.empty : Life κ δ).fns = 0 := rfl
  rw [hempty, zero_add] at hbooks
  rw [hbooks]
  cases r.2 with
  | none => rfl
  | some w => rw [Option.elim_some, Option.elim_some, fns_life]

/-- A callback that is handed over is called at most once, and not while the
    bearer has it still. -/
theorem answered_at_most_once (is : List (BearerInput ε κ δ)) :
    let r := (bearerMachine U).run (Endpoint.fresh ioOnL2cap mtu crypto upper) is
    (↑(r.1.filterMap BearerEvent.asCall) : Multiset κ) +
        (r.2.elim 0 fun w => ↑(w.att.ops.filterMap AttSendOp.callback)) ≤
      ↑(r.1.filterMap BearerEvent.armed) := by
  intro r
  have hpath : Moves Move Life.empty r.1 (r.2.elim Life.empty fun w => w.att.life 0) :=
    fresh_path U ioOnL2cap mtu crypto upper is
  have hbound := hpath.bounded fun _ _ _ h => h.answers
  have harmed (e : BearerEvent κ δ) : e.handed = ↑e.armed.toList := by
    cases e <;> rfl
  have hempty : (Life.empty : Life κ δ).callbacks = 0 := rfl
  have hcalled : (r.1.map BearerEvent.called).sum = ↑(r.1.filterMap BearerEvent.asCall) :=
    sum_toList BearerEvent.asCall r.1
  rw [hempty, zero_add, funext harmed, sum_toList, hcalled] at hbound
  refine le_trans (le_of_eq ?_) hbound
  congr 1
  cases r.2 with
  | none => rfl
  | some w => rw [Option.elim_some, Option.elim_some, Life.callbacks, total_ops, sum_toList]

/-- Indications and PDUs without an answer are sent in the order in which they
    were accepted, each at most once, and those that still wait come after. -/
theorem first_in_first_out (lane : Lane) :
    let r := (bearerMachine U).run (Endpoint.fresh ioOnL2cap mtu crypto upper) is
    (r.1.filterMap (BearerEvent.leaves lane) ++
        r.2.elim [] fun w => (w.att.life 0).lane lane).Sublist
      (r.1.filterMap (BearerEvent.enters lane)) := by
  intro r
  have hpath : Moves Move Life.empty r.1 (r.2.elim Life.empty fun w => w.att.life 0) :=
    fresh_path U ioOnL2cap mtu crypto upper is
  have horder : (r.1.filterMap (BearerEvent.leaves lane) ++
      (r.2.elim Life.empty fun w => w.att.life 0).lane lane).Sublist
        ((Life.empty : Life κ δ).lane lane ++ r.1.filterMap (BearerEvent.enters lane)) :=
    hpath.conveys Life.Typed (fun _ _ _ hL h => h.typed hL)
      (fun _ _ _ hL h => h.conveys hL lane) empty_typed
  have hempty : (Life.empty : Life κ δ).lane lane = [] := by
    cases lane <;> rfl
  rw [hempty, List.nil_append] at horder
  cases hr : r.2 with
  | none =>
      rw [hr, Option.elim_none, hempty] at horder
      exact horder
  | some w =>
      rw [hr, Option.elim_some] at horder
      exact horder

end Runs

end Wallclock
