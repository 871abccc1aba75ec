import Wallclock.Core.Creation
import Wallclock.Theory.Session

/-!
# The Objects of the Server

What the functions do that `server_create` calls.

A pointer that is used is to a live block of its kind, and the lemmas ending in
`_live` say what a function does then. They are equations: the function writes
to one block, and the rest of the state is as it was. `Attached` is the state
in which the transport is all there is. There its last reference, taken away
by `Attached.unref`, leaves the heap as it was found, so a failure up to that
point can be undone.

Behind `bt_gatt_server_new` there is more. The GATT server holds references of
the transport and of the database, and the transport's handlers point to the
GATT server (`Sharing`). Taking the two references of `server_create` away frees
none of the three, and `Theory.Creation` is about what follows from that.

Faults are never taken back. One lemma for each function says so, since a
failing function can be anywhere in what it does.

## Main definitions

* `Transport.fresh`: The transport inside `bt_att_new`.
* `Attached`: The transport is all there is.
* `Only`: One block has changed.
* `Sharing`: The objects behind `bt_gatt_server_new`.

## Theorems

* `cleared_subset`: Clearing an entry of the main loop adds none.
* `btAttRef_live`, `btAttUnref_shared`, `btAttUnref_last`: References of the
  transport.
* `ioDestroy_entry`, `btAttFree_alloc`, `btAttFree_fresh`: Freeing it.
* `ioNew_eq_some`, `btAttNew_io`, `btAttNew_fails`, `btAttNew_succeeds`: Making
  one.
* `btAttSetCloseOnUnref_live`, `btAttRegisterDisconnect_live`,
  `btAttRegister_live`, `takeId_ne_zero`: Its flag and its callbacks.
* `Attached.setCloseOnUnref`, `Attached.registerDisconnect`, `Attached.unref`:
  The same, where it is all there is.
* `heap_ioDestroy`, `faults_put`, `faults_free`, `faults_misuse` and the lemmas
  named after a function: Faults stay recorded.
* `gattServerRegisterAttHandlers_all`: All handlers are registered.
* `gattDbRef_live`, `gattDbUnref_shared`, `gattDbNew_succeeds`: References of
  the database.
* `Only.trans`, `only_put`: Writes to one block.
* `runSteps_live`: The attributes that are added.
* `references`, `btGattServerNew_succeeds`: The references that are shared.
-/

namespace Wallclock.Creation

open Descriptor

section Functions

variable {K A : Allocator} {w : World} {a d g server fd : ℕ} {t : Transport} {p : Pointer}

@[simp] theorem World.heap_put (a : ℕ) (x : Object) : (w.put a x).heap = w.heap.put a x := rfl
@[simp] theorem World.heap_free (p : Pointer) : (w.free p).heap = w.heap.free p := rfl
@[simp] theorem World.free_null (w : World) : w.free .null = w := rfl
@[simp] theorem gattDbUnref_null (w : World) : gattDbUnref .null w = w := rfl
@[simp] theorem btAttUnref_null (w : World) : btAttUnref .null w = w := rfl

/-- A table of the main loop after an entry of it has been cleared. -/
theorem cleared_subset {m : ℕ → Option ℕ} {fd n b : ℕ}
    (h : Function.update m fd none n = some b) : m n = some b := by
  -- The entry is the one that was cleared, or it is an old one.
  by_cases hne : n = fd
  · rw [hne, Function.update_self] at h
    exact absurd h.symm (Option.some_ne_none b)
  · rwa [Function.update_of_ne hne] at h

theorem btAttRef_live (h : w.heap.get (.block a) = some (.att t)) :
    btAttRef (.block a) w = w.put a (.att { t with refCount := t.refCount + 1 }) := by
  simp only [btAttRef, h]

theorem btAttUnref_shared (h : w.heap.get (.block a) = some (.att t)) (hne : t.refCount ≠ 1)
    (hpos : 0 < t.refCount) :
    btAttUnref (.block a) w = w.put a (.att { t with refCount := t.refCount - 1 }) := by
  have hleft : t.refCount - 1 ≠ 0 := by omega
  simp only [btAttUnref, h, hleft, ne_eq, not_false_eq_true, if_true]

theorem btAttUnref_last (h : w.heap.get (.block a) = some (.att t)) (hone : t.refCount = 1) :
    btAttUnref (.block a) w
      = btAttFree a { t with refCount := 0, notifyList := [], disconnList := [] } w := by
  simp only [btAttUnref, h, hone, Nat.sub_self, ne_eq, not_true_eq_false, if_false]

theorem ioDestroy_entry {io : Io} (hentry : w.mainloop io.fd ≠ none) :
    ioDestroy (some io) w = { w with
      mainloop := Function.update w.mainloop io.fd none
      table := Wallclock.ioDestroy (some io) w.table } := by
  unfold ioDestroy
  cases hcase : w.mainloop io.fd with
  | none => exact absurd hcase hentry
  | some _ => simp only [hcase]

/-- Freeing a transport that was allocated last and has its entry in the main
    loop leaves the heap as it was. -/
theorem btAttFree_alloc {h : Heap Object} {x : Object} {io : Io}
    (hheap : w.heap = h.alloc A x) (hio : t.io = some io) (hentry : w.mainloop io.fd ≠ none) :
    btAttFree (h.next A) t w = {
      heap := h
      table := btCryptoUnref t.crypto (Wallclock.ioDestroy (some io) w.table)
      mainloop := Function.update w.mainloop io.fd none } := by
  simp only [btAttFree, hio, ioDestroy_entry hentry, World.free, hheap, Heap.free_alloc]

/-- The transport that is made while its handlers are being set. -/
def Transport.fresh (fd : ℕ) (crypto : Option Crypto) : Transport :=
  { Transport.zero with io := some ⟨fd, false⟩, crypto := crypto }

/-- The failure path behind `io_new`. -/
theorem btAttFree_fresh (K : Allocator) (o : CryptoOutcome) {x : Object} {v : World}
    (hheap : v.heap = w.heap.alloc A x) (htable : v.table = (btCryptoNew K o w.table).2)
    (hmainloop : v.mainloop = Function.update w.mainloop fd (some a)) :
    btAttFree (w.heap.next A) (.fresh fd (btCryptoNew K o w.table).1) v
      = { w with mainloop := Function.update w.mainloop fd none } := by
  -- `io_new` has made the entry.
  have hentry : v.mainloop fd ≠ none := by
    rw [hmainloop, Function.update_self]
    exact Option.some_ne_none a
  rw [btAttFree_alloc hheap rfl hentry, htable, hmainloop]
  simp only [Transport.fresh, Wallclock.ioDestroy, btCryptoUnref_btCryptoNew, Function.update_idem]

theorem ioNew_eq_some {epollFd : Option ℕ} {addFd : Bool} {io : Io}
    (h : Wallclock.ioNew fd epollFd addFd = some io) :
    io = ⟨fd, false⟩ ∧ epollFd ≠ none ∧ fd ≤ 127 ∧ addFd = true := by
  unfold Wallclock.ioNew at h
  split_ifs at h with hfd hepoll hadd
  · rw [Bool.not_eq_true', Bool.not_eq_false] at hadd
    exact ⟨(Option.some.inj h).symm, hepoll, Nat.not_lt.mp hfd, hadd⟩

/-- Four tests with the same failure path. -/
theorem if_four {α : Type*} (b₁ b₂ b₃ b₄ : Bool) (x y : α) :
    (if !b₁ then x else if !b₂ then x else if !b₃ then x else if !b₄ then x else y)
      = if b₁ && b₂ && b₃ && b₄ then y else x := by
  cases b₁ with
  | false => rfl
  | true =>
      cases b₂ with
      | false => rfl
      | true =>
          cases b₃ with
          | false => rfl
          | true => cases b₄ <;> rfl

/-- Behind `io_new`, `bt_att_new` either leaves nothing but a cleared entry of
    the main loop or has a transport. -/
theorem btAttNew_io {o : AttOutcome} {epollFd : Option ℕ} {io : Io}
    (hio : Wallclock.ioNew fd epollFd o.addFd = some io) :
    btAttNew K A o fd epollFd w =
      if o.readHandler && o.disconnectHandler && o.mtu && o.buf then
        (.block (w.heap.next A), {
          heap := w.heap.alloc A (.att
            { Transport.fresh fd (btCryptoNew K o.crypto w.table).1 with refCount := 1 })
          table := (btCryptoNew K o.crypto w.table).2
          mainloop := Function.update w.mainloop fd (some (w.heap.next A)) })
      else (.null, { w with mainloop := Function.update w.mainloop fd none }) := by
  rcases ioNew_eq_some hio with ⟨rfl, _⟩
  have hput : ∀ x y : Object, (w.heap.alloc A x).put (w.heap.next A) y = w.heap.alloc A y :=
    fun _ _ => Heap.put_alloc
  unfold btAttNew ioNew
  simp only [hio, if_four]
  split
  · -- The reference is written to the new block.
    refine congrArg (Prod.mk _) ?_
    unfold World.new World.put
    rw [btAttRef_live (t := .fresh fd (btCryptoNew K o.crypto w.table).1) (by
      rw [hput]
      exact Heap.get_alloc)]
    unfold World.put
    rw [hput, hput]
    rfl
  · exact congrArg (Prod.mk _) (btAttFree_fresh K o.crypto (hput _ _) rfl rfl)

/-- A failing `bt_att_new` leaves nothing behind. -/
theorem btAttNew_fails {o : AttOutcome} {epollFd : Option ℕ}
    (h : epollFd = none ∨ o.succeeds fd = false) : ∃ m,
    btAttNew K A o fd epollFd w = (.null, { w with mainloop := m }) ∧
      ∀ n b, m n = some b → w.mainloop n = some b := by
  rcases hio : Wallclock.ioNew fd epollFd o.addFd with _ | io
  · -- `io_new` has failed, before an entry was made.
    refine ⟨w.mainloop, ?_, fun _ _ hn => hn⟩
    simp only [btAttNew, ioNew, hio, World.new, btAttFree, Transport.zero, ioDestroy,
      btCryptoUnref, World.free, Heap.free_alloc]
  · refine ⟨Function.update w.mainloop fd none, ?_, ?_⟩
    · rcases ioNew_eq_some hio with ⟨_, hepoll, hfd, hadd⟩
      have hfails := h.resolve_left hepoll
      simp only [AttOutcome.succeeds, hfd, hadd, decide_true, Bool.true_and] at hfails
      simp only [btAttNew_io hio, hfails, Bool.false_eq_true, if_false]
    · exact fun _ _ => cleared_subset

/-- Otherwise there is a transport with one reference. -/
theorem btAttNew_succeeds {o : AttOutcome} {epollFd : Option ℕ} (hepoll : epollFd ≠ none)
    (h : o.succeeds fd = true) :
    btAttNew K A o fd epollFd w = (.block (w.heap.next A), {
      heap := w.heap.alloc A (.att
        { Transport.fresh fd (btCryptoNew K o.crypto w.table).1 with refCount := 1 })
      table := (btCryptoNew K o.crypto w.table).2
      mainloop := Function.update w.mainloop fd (some (w.heap.next A)) }) := by
  simp only [AttOutcome.succeeds, Bool.and_eq_true, decide_eq_true_eq] at h
  rcases h with ⟨⟨⟨⟨⟨hfd, hadd⟩, hread⟩, hdisc⟩, hmtu⟩, hbuf⟩
  have hio : Wallclock.ioNew fd epollFd o.addFd = some ⟨fd, false⟩ := by
    have hfd' : ¬fd > 127 := by omega
    simp only [Wallclock.ioNew, hfd', hepoll, hadd, Bool.not_true, Bool.false_eq_true, if_false]
  simp only [btAttNew_io hio, hread, hdisc, hmtu, hbuf, Bool.and_self, if_true]

theorem btAttSetCloseOnUnref_live (h : w.heap.get (.block a) = some (.att t)) (hio : t.io ≠ none)
    (ok : Bool) : btAttSetCloseOnUnref (.block a) ok w
      = if ok then (true, w.put a (.att { t with
          io := t.io.map fun io => { io with closeOnDestroy := true } }))
        else (false, w) := by
  cases ok with
  | false => simp only [btAttSetCloseOnUnref, h, hio, Bool.not_false, or_true, if_true,
      Bool.false_eq_true, if_false]
  | true => simp only [btAttSetCloseOnUnref, h, hio, Bool.not_true, Bool.false_eq_true, or_self,
      if_false, if_true]

theorem btAttRegisterDisconnect_live (h : w.heap.get (.block a) = some (.att t))
    (hio : t.io ≠ none) (ok : Bool) : btAttRegisterDisconnect (.block a) ok w
      = if ok then (t.takeId.1, w.put a (.att { t.takeId.2 with
          disconnList := t.disconnList ++ [t.takeId.1] }))
        else (0, w.put a (.att t.takeId.2)) := by
  cases ok with
  | false => simp only [btAttRegisterDisconnect, h, hio, Bool.not_false, if_false, if_true,
      Bool.false_eq_true]
  | true =>
      simp only [btAttRegisterDisconnect, h, hio, Bool.not_true, Bool.false_eq_true, if_false,
        if_true]
      rfl

theorem btAttRegister_live (h : w.heap.get (.block a) = some (.att t)) (hio : t.io ≠ none)
    (opcode : ℕ) (p : Pointer) (ok : Bool) : btAttRegister (.block a) opcode p ok w
      = if ok then (t.takeId.1, w.put a (.att { t.takeId.2 with
          notifyList := t.notifyList ++ [⟨t.takeId.1, opcode, p⟩] }))
        else (0, w.put a (.att t.takeId.2)) := by
  cases ok with
  | false => simp only [btAttRegister, h, hio, Bool.not_false, if_false, if_true,
      Bool.false_eq_true]
  | true =>
      simp only [btAttRegister, h, hio, Bool.not_true, Bool.false_eq_true, if_false,
        if_true]
      rfl

theorem takeId_ne_zero (t : Transport) : t.takeId.1 ≠ 0 := by
  by_cases h : t.nextRegId < 1
  · simp only [Transport.takeId, h, if_true, ne_eq, one_ne_zero, not_false_eq_true]
  · simp only [Transport.takeId, h, if_false]
    omega

end Functions

/-- The transport `t` was allocated last, in the heap `h`, has one reference and
    is registered with the main loop. -/
structure Attached (A : Allocator) (fd : ℕ) (m : ℕ → Option ℕ) (h : Heap Object) (t : Transport)
    (w : World) : Prop where
  heap : w.heap = h.alloc A (.att t)
  count : t.refCount = 1
  io : ∃ io, t.io = some io ∧ io.fd = fd
  mainloop : w.mainloop = Function.update m fd (some (h.next A))

namespace Attached

variable {A : Allocator} {fd server : ℕ} {m : ℕ → Option ℕ} {h : Heap Object} {t : Transport}
  {w : World}

theorem get (hw : Attached A fd m h t w) :
    w.heap.get (.block (h.next A)) = some (.att t) := by
  rw [hw.heap]
  exact Heap.get_alloc

theorem io_ne_none (hw : Attached A fd m h t w) : t.io ≠ none := by
  rcases hw.io with ⟨io, hio, _⟩
  rw [hio]
  exact Option.some_ne_none io

/-- Writing to the transport keeps it so. -/
theorem put (hw : Attached A fd m h t w) {t' : Transport} (hcount : t'.refCount = 1)
    (hio : ∃ io, t'.io = some io ∧ io.fd = fd) :
    Attached A fd m h t' (w.put (h.next A) (.att t')) where
  heap := by
    rw [World.heap_put, hw.heap, Heap.put_alloc]
  count := hcount
  io := hio
  mainloop := hw.mainloop

/-- The flag is set on the entry that the transport has. -/
theorem setCloseOnUnref (hw : Attached A fd m h t w) (ok : Bool) : ∃ t' w',
    btAttSetCloseOnUnref (.block (h.next A)) ok w = (ok, w') ∧ Attached A fd m h t' w' ∧
      t'.io = (t.io.map fun io => if ok then { io with closeOnDestroy := true } else io) ∧
      t'.crypto = t.crypto ∧ t'.notifyList = t.notifyList ∧ w'.table = w.table := by
  rw [btAttSetCloseOnUnref_live hw.get hw.io_ne_none]
  rcases hw.io with ⟨io, hio, hfd⟩
  cases ok with
  | false =>
      refine ⟨t, w, rfl, hw, ?_, rfl, rfl, rfl⟩
      rw [hio]
      rfl
  | true =>
      refine ⟨_, _, rfl, hw.put hw.count ⟨{ io with closeOnDestroy := true }, ?_, hfd⟩, rfl, rfl,
        rfl, rfl⟩
      rw [hio]
      rfl

theorem registerDisconnect (hw : Attached A fd m h t w) (ok : Bool) : ∃ id t' w',
    btAttRegisterDisconnect (.block (h.next A)) ok w = (id, w') ∧ (id = 0 ↔ ok = false) ∧
      Attached A fd m h t' w' ∧ t'.io = t.io ∧ t'.crypto = t.crypto ∧
      t'.notifyList = t.notifyList ∧ w'.table = w.table := by
  rw [btAttRegisterDisconnect_live hw.get hw.io_ne_none]
  cases ok with
  | false =>
      exact ⟨0, _, _, rfl, ⟨fun _ => rfl, fun _ => rfl⟩,
        @put A fd m h t w hw t.takeId.2 hw.count hw.io, rfl, rfl, rfl, rfl⟩
  | true =>
      refine ⟨_, _, _, rfl, ⟨fun hid => absurd hid (takeId_ne_zero t), fun hok => absurd hok ?_⟩,
        hw.put hw.count hw.io, rfl, rfl, rfl, rfl⟩
      exact Bool.noConfusion

/-- Its last reference leaves the heap as it was. -/
theorem unref (hw : Attached A fd m h t w) :
    (btAttUnref (.block (h.next A)) w).heap = h ∧
      (btAttUnref (.block (h.next A)) w).mainloop = Function.update m fd none := by
  rcases hw.io with ⟨io, hio, rfl⟩
  have hentry : w.mainloop io.fd ≠ none := by
    rw [hw.mainloop, Function.update_self]
    exact Option.some_ne_none _
  have hfree := @btAttFree_alloc A w { t with refCount := 0, notifyList := [], disconnList := [] }
    h (.att t) io hw.heap hio hentry
  rw [btAttUnref_last hw.get hw.count, hfree]
  refine ⟨rfl, ?_⟩
  change Function.update w.mainloop io.fd none = _
  rw [hw.mainloop, Function.update_idem]

end Attached

section Faults

variable {A : Allocator} {w : World}

theorem faults_put (w : World) (a : ℕ) (x : Object) : w.heap.faults <+: (w.put a x).heap.faults :=
  Heap.faults_put

theorem faults_free (w : World) (p : Pointer) : w.heap.faults <+: (w.free p).heap.faults :=
  Heap.faults_free

theorem faults_misuse (w : World) (p : Pointer) : w.heap.faults <+: (w.misuse p).heap.faults :=
  List.prefix_append _ _

theorem heap_ioDestroy (io : Option Io) (w : World) : (ioDestroy io w).heap = w.heap := by
  unfold ioDestroy
  split
  · rfl
  · split
    · rfl
    · rfl

theorem faults_btAttFree (a : ℕ) (t : Transport) (w : World) :
    w.heap.faults <+: (btAttFree a t w).heap.faults := by
  have hheap := heap_ioDestroy t.io w
  unfold btAttFree
  refine List.IsPrefix.trans ?_ (faults_free _ _)
  rw [hheap]

theorem faults_btAttRef (p : Pointer) (w : World) :
    w.heap.faults <+: (btAttRef p w).heap.faults := by
  unfold btAttRef
  split
  · exact List.prefix_refl _
  · exact faults_put _ _ _
  · exact faults_misuse _ _

theorem faults_btAttUnref (p : Pointer) (w : World) :
    w.heap.faults <+: (btAttUnref p w).heap.faults := by
  unfold btAttUnref
  split
  · exact List.prefix_refl _
  · dsimp only
    split
    · exact faults_put _ _ _
    · exact faults_btAttFree _ _ _
  · exact faults_misuse _ _

theorem faults_btAttRegister (p : Pointer) (opcode : ℕ) (q : Pointer) (ok : Bool) (w : World) :
    w.heap.faults <+: (btAttRegister p opcode q ok w).2.heap.faults := by
  unfold btAttRegister
  split
  · exact List.prefix_refl _
  · dsimp only
    split_ifs
    · exact List.prefix_refl _
    · exact faults_put _ _ _
    · exact faults_put _ _ _
  · exact faults_misuse _ _

theorem faults_btAttUnregister (p : Pointer) (id : ℕ) (w : World) :
    w.heap.faults <+: (btAttUnregister p id w).heap.faults := by
  unfold btAttUnregister
  split
  · exact List.prefix_refl _
  · split_ifs
    · exact List.prefix_refl _
    · exact faults_put _ _ _
  · exact faults_misuse _ _

theorem faults_gattDbRef (p : Pointer) (w : World) :
    w.heap.faults <+: (gattDbRef p w).heap.faults := by
  unfold gattDbRef
  split
  · exact List.prefix_refl _
  · exact faults_put _ _ _
  · exact faults_misuse _ _

theorem faults_gattDbUnref (p : Pointer) (w : World) :
    w.heap.faults <+: (gattDbUnref p w).heap.faults := by
  unfold gattDbUnref
  split
  · exact List.prefix_refl _
  · dsimp only
    split
    · exact faults_put _ _ _
    · exact faults_free _ _
  · exact faults_misuse _ _

theorem faults_gattDbNew (A : Allocator) (ok : Bool) (w : World) :
    w.heap.faults <+: (gattDbNew A ok w).2.heap.faults := by
  unfold gattDbNew
  split
  · exact List.prefix_refl _
  · exact faults_gattDbRef _ (w.new A (.db ⟨0, []⟩)).2

theorem faults_gattServerRegisterAttHandlers (g : ℕ) (opcodes : List ℕ) (ok : ℕ) (s : Gatt)
    (w : World) :
    w.heap.faults <+: (gattServerRegisterAttHandlers g opcodes ok s w).2.2.heap.faults := by
  induction opcodes generalizing ok s w with
  | nil => exact List.prefix_refl _
  | cons opcode opcodes ih =>
      have hregister := faults_btAttRegister s.att opcode (.block g) (decide (0 < ok)) w
      unfold gattServerRegisterAttHandlers
      dsimp only
      split_ifs
      · exact hregister
      · exact hregister.trans (ih _ _ _)

theorem faults_btGattServerFree (g : ℕ) (s : Gatt) (w : World) :
    w.heap.faults <+: (btGattServerFree g s w).heap.faults := by
  have hunregister : ∀ (ids : List ℕ) (v : World), v.heap.faults <+:
      (ids.foldl (fun w id => btAttUnregister s.att id w) v).heap.faults := by
    intro ids
    induction ids with
    | nil => exact fun v => List.prefix_refl _
    | cons id ids ih => exact fun v => (faults_btAttUnregister s.att id v).trans (ih _)
  unfold btGattServerFree
  exact (((hunregister s.ids w).trans (faults_gattDbUnref _ _)).trans
    (faults_btAttUnref _ _)).trans (faults_free _ _)

theorem faults_btGattServerNew (A : Allocator) (db att : Pointer) (ok : ℕ) (w : World) :
    w.heap.faults <+: (btGattServerNew A db att ok w).2.heap.faults := by
  unfold btGattServerNew
  split_ifs
  · exact List.prefix_refl _
  · have hrefs := (faults_gattDbRef db (w.new A (.gatt ⟨0, db, att, []⟩)).2).trans
      (faults_btAttRef att _)
    have hregister := faults_gattServerRegisterAttHandlers (w.heap.next A) attHandlers ok
      ⟨0, db, att, []⟩ (btAttRef att (gattDbRef db (w.new A (.gatt ⟨0, db, att, []⟩)).2))
    dsimp only
    rcases hcall : gattServerRegisterAttHandlers (w.heap.next A) attHandlers ok ⟨0, db, att, []⟩
      (btAttRef att (gattDbRef db (w.new A (.gatt ⟨0, db, att, []⟩)).2)) with ⟨all, s, w'⟩
    rw [hcall] at hregister
    simp only [World.new] at hcall ⊢
    rw [hcall]
    cases all with
    | false => exact (hrefs.trans hregister).trans (faults_btGattServerFree _ _ _)
    | true => exact (hrefs.trans hregister).trans (faults_put _ _ _)

theorem faults_runSteps (server : ℕ) (db : Pointer) (steps : List Step) (ok : ℕ) (w : World) :
    w.heap.faults <+: (runSteps server db steps ok w).2.heap.faults := by
  induction steps generalizing ok w with
  | nil => exact List.prefix_refl _
  | cons step steps ih =>
      unfold runSteps
      split
      · split_ifs
        · exact List.prefix_refl _
        · exact (faults_put _ _ _).trans (ih _ _)
      · exact faults_misuse _ _

end Faults

/-- Only the block at `a` has changed. -/
structure Only (a : ℕ) (w w' : World) : Prop where
  get : ∀ p, p ≠ .block a → w'.heap.get p = w.heap.get p
  table : w'.table = w.table
  mainloop : w'.mainloop = w.mainloop

section Sharing

variable {A : Allocator} {w w' w'' : World} {a d g server : ℕ} {t : Transport} {db : Db}
  {p : Pointer}

theorem Only.refl (a : ℕ) (w : World) : Only a w w := ⟨fun _ _ => rfl, rfl, rfl⟩

theorem Only.trans (h : Only a w w') (h' : Only a w' w'') : Only a w w'' :=
  ⟨fun p hp => (h'.get p hp).trans (h.get p hp), h'.table.trans h.table,
    h'.mainloop.trans h.mainloop⟩

theorem only_put (w : World) (a : ℕ) (x : Object) : Only a w (w.put a x) :=
  ⟨fun _ hp => Heap.get_put_of_ne hp, rfl, rfl⟩

/-- All registrations succeed: the handlers of the GATT server are added. -/
theorem gattServerRegisterAttHandlers_all {opcodes : List ℕ} {ok : ℕ} {s : Gatt}
    (h : w.heap.get (.block a) = some (.att t)) (hio : t.io ≠ none) (hatt : s.att = .block a)
    (hok : opcodes.length ≤ ok) : ∃ ids t' w',
      gattServerRegisterAttHandlers g opcodes ok s w = (true, { s with ids := ids }, w') ∧
      w'.heap.get (.block a) = some (.att t') ∧ t'.toAtt = t.toAtt ∧
      (∀ n ∈ t.notifyList, n ∈ t'.notifyList) ∧
      (∀ opcode ∈ opcodes, ∃ n ∈ t'.notifyList, n.opcode = opcode ∧ n.userData = .block g) ∧
      Only a w w' := by
  -- Induction on the opcodes, each of which adds a handler to the transport.
  induction opcodes generalizing ok s w t with
  | nil => exact ⟨s.ids, t, w, rfl, h, rfl, fun _ hn => hn, fun _ hn => absurd hn List.not_mem_nil,
      Only.refl a w⟩
  | cons opcode opcodes ih =>
      rw [List.length_cons] at hok
      have hpos : decide (0 < ok) = true := decide_eq_true (by omega)
      have hget : (w.put a (.att { t.takeId.2 with
          notifyList := t.notifyList ++ [⟨t.takeId.1, opcode, .block g⟩] })).heap.get (.block a)
          = some _ := Heap.get_put h
      rcases ih (s := { s with ids := s.ids ++ [t.takeId.1] }) hget hio hatt
        (show opcodes.length ≤ ok - 1 by omega)
        with ⟨ids, t', w', hrun, ht', hsame, hold, hnew, honly⟩
      refine ⟨ids, t', w', ?_, ht', hsame, ?_, ?_, (only_put w a _).trans honly⟩
      · unfold gattServerRegisterAttHandlers
        rw [hatt, btAttRegister_live h hio, hpos, if_pos rfl]
        dsimp only
        rw [if_neg (takeId_ne_zero t), ← hatt]
        exact hrun
      · exact fun n hn => hold n (List.mem_append_left _ hn)
      · intro opcode' hmem
        rcases List.mem_cons.mp hmem with rfl | hmem
        · exact ⟨_, hold _ (List.mem_append_right _ List.mem_cons_self), rfl, rfl⟩
        · exact hnew opcode' hmem

theorem gattDbRef_live (h : w.heap.get (.block d) = some (.db db)) :
    gattDbRef (.block d) w = w.put d (.db { db with refCount := db.refCount + 1 }) := by
  simp only [gattDbRef, h]

theorem gattDbUnref_shared (h : w.heap.get (.block d) = some (.db db)) (hshared : 1 < db.refCount) :
    gattDbUnref (.block d) w = w.put d (.db { db with refCount := db.refCount - 1 }) := by
  have hleft : db.refCount - 1 ≠ 0 := by omega
  simp only [gattDbUnref, h, hleft, ne_eq, not_false_eq_true, if_true]

/-- A new database. -/
theorem gattDbNew_succeeds (A : Allocator) (w : World) : gattDbNew A true w
    = (.block (w.heap.next A), { w with heap := w.heap.alloc A (.db ⟨1, []⟩) }) := by
  have hget : (w.new A (.db ⟨0, []⟩)).2.heap.get (.block (w.heap.next A)) = some _ := Heap.get_alloc
  unfold gattDbNew
  simp only [Bool.not_true, Bool.false_eq_true, if_false]
  rw [show (w.new A (.db ⟨0, []⟩)).1 = w.heap.next A from rfl, gattDbRef_live hget]
  refine congrArg (Prod.mk _) ?_
  unfold World.put World.new
  dsimp only
  rw [Heap.put_alloc]

/-- Steps that succeed add their attributes. -/
theorem runSteps_live (server : ℕ) (steps : List Step) (ok : ℕ)
    (h : w.heap.get (.block d) = some (.db db)) : ∃ w',
      runSteps server (.block d) steps ok w = (decide (steps.length ≤ ok), w') ∧
      w'.heap.get (.block d) = some (.db { db with
        userData := db.userData ++ (steps.take ok).flatMap (Step.added server) }) ∧
      Only d w w' := by
  -- Induction on the steps, as long as they succeed.
  induction steps generalizing ok w db with
  | nil =>
      refine ⟨w, rfl, ?_, Only.refl d w⟩
      rw [h, List.take_nil, List.flatMap_nil, List.append_nil]
  | cons step steps ih =>
      cases ok with
      | zero =>
          refine ⟨w, ?_, ?_, Only.refl d w⟩
          · simp only [runSteps, h, if_true, List.length_cons, Nat.le_zero_eq, Nat.succ_ne_zero,
              decide_false]
          · rw [h, List.take_zero, List.flatMap_nil, List.append_nil]
      | succ ok =>
          have hget : (w.put d (.db { db with
              userData := db.userData ++ step.added server })).heap.get (.block d) = some _ :=
            Heap.get_put h
          rcases ih ok hget with ⟨w', hrun, hget', honly⟩
          refine ⟨w', ?_, ?_, (only_put w d _).trans honly⟩
          · simp only [runSteps, h, Nat.succ_ne_zero, if_false, Nat.add_sub_cancel, hrun,
              List.length_cons, Nat.add_le_add_iff_right]
          · rw [hget', List.take_succ_cons, List.flatMap_cons, List.append_assoc]

/-- The state behind `bt_gatt_server_new`: three objects that share two of
    each other's references. -/
structure Sharing (a d g : ℕ) (t : Transport) (w : World) : Prop where
  att : w.heap.get (.block a) = some (.att t)
  attCount : t.refCount = 2
  handler : ∃ n ∈ t.notifyList, n.userData = .block g
  db : ∃ attributes, w.heap.get (.block d) = some (.db ⟨2, attributes⟩)
  gatt : ∃ s : Gatt, w.heap.get (.block g) = some (.gatt s) ∧ s.refCount = 1 ∧ s.db = .block d

/-- The two references that a new block takes. -/
theorem references (x : Object) {n m : ℕ} (hatt : w.heap.get (.block a) = some (.att t))
    (hcount : t.refCount = n) (hdb : w.heap.get (.block d) = some (.db ⟨m, []⟩)) : ∃ w',
      btAttRef (.block a) (gattDbRef (.block d) (w.new A x).2) = w' ∧
      w'.heap.get (.block a) = some (.att { t with refCount := n + 1 }) ∧
      w'.heap.get (.block d) = some (.db ⟨m + 1, []⟩) ∧
      (∀ p y, p ≠ .block a → p ≠ .block d → (w.heap.alloc A x).get p = some y →
        w'.heap.get p = some y) ∧
      w'.table = w.table ∧ w'.mainloop = w.mainloop := by
  -- The two blocks differ, so each reference is written to a block that is as it was.
  have had : Pointer.block a ≠ .block d := Heap.ne_of_get hatt hdb Object.noConfusion
  have hatt₀ : (w.new A x).2.heap.get (.block a) = some (.att t) := Heap.get_alloc_of_get hatt
  have hdb₀ : (w.new A x).2.heap.get (.block d) = some (.db ⟨m, []⟩) := Heap.get_alloc_of_get hdb
  have hatt₁ : ((w.new A x).2.put d (.db ⟨m + 1, []⟩)).heap.get (.block a) = some (.att t) :=
    (Heap.get_put_of_ne had).trans hatt₀
  rw [gattDbRef_live hdb₀, btAttRef_live hatt₁, hcount]
  refine ⟨_, rfl, Heap.get_put hatt₁, ?_, fun p y hpa hpd hp => ?_, rfl, rfl⟩
  · exact (Heap.get_put_of_ne had.symm).trans (Heap.get_put hdb₀)
  · exact ((Heap.get_put_of_ne hpa).trans (Heap.get_put_of_ne hpd)).trans hp

theorem btGattServerNew_succeeds {ok : ℕ} (hatt : w.heap.get (.block a) = some (.att t))
    (hcount : t.refCount = 1) (hio : t.io ≠ none)
    (hdb : w.heap.get (.block d) = some (.db ⟨1, []⟩)) (hok : attHandlers.length ≤ ok) :
    ∃ t' w', btGattServerNew A (.block d) (.block a) ok w = (.block (w.heap.next A), w') ∧
      Sharing a d (w.heap.next A) t' w' ∧ t'.io = t.io ∧ t'.crypto = t.crypto ∧
      w'.heap.get (.block d) = some (.db ⟨2, []⟩) ∧
      (∀ p x, p ≠ .block a → p ≠ .block d → w.heap.get p = some x → w'.heap.get p = some x) ∧
      w'.table = w.table ∧ w'.mainloop = w.mainloop := by
  have hda : Pointer.block d ≠ .block a := Heap.ne_of_get hdb hatt Object.noConfusion
  have hag : Pointer.block a ≠ .block (w.heap.next A) := Heap.ne_next_of_get hatt
  have hdg : Pointer.block d ≠ .block (w.heap.next A) := Heap.ne_next_of_get hdb
  rcases references (A := A) (.gatt ⟨0, .block d, .block a, []⟩) hatt hcount hdb
    with ⟨w₁, hrefs, ha₁, hd₁, hkeep₁, htable, hmainloop⟩
  rcases gattServerRegisterAttHandlers_all (g := w.heap.next A)
    (s := ⟨0, .block d, .block a, []⟩) ha₁ hio rfl hok
    with ⟨ids, t', w₂, hrun, ha₂, hsame, _, hnew, honly⟩
  have hkeep : ∀ p x, p ≠ .block a → p ≠ .block d →
      (w.heap.alloc A (.gatt ⟨0, .block d, .block a, []⟩)).get p = some x →
      w₂.heap.get p = some x := fun p x hpa hpd hp =>
    (honly.get p hpa).trans (hkeep₁ p x hpa hpd hp)
  have hg₂ := hkeep _ _ hag.symm hdg.symm Heap.get_alloc
  have hd₂ := (honly.get _ hda).trans hd₁
  have hio' := congrArg Att.io hsame
  have hcrypto' := congrArg Att.crypto hsame
  rcases hnew btAttOpMtuReq List.mem_cons_self with ⟨n, hn, _, hng⟩
  -- The server itself is written last, with its reference and its identifiers.
  refine ⟨t', w₂.put (w.heap.next A) (.gatt ⟨1, .block d, .block a, ids⟩), ?_,
    ⟨(Heap.get_put_of_ne hag).trans ha₂, congrArg Att.refCount hsame, ⟨n, hn, hng⟩,
      ⟨[], (Heap.get_put_of_ne hdg).trans hd₂⟩, ⟨_, Heap.get_put hg₂, rfl, rfl⟩⟩,
    hio', hcrypto', (Heap.get_put_of_ne hdg).trans hd₂, ?_,
    honly.table.trans htable, honly.mainloop.trans hmainloop⟩
  · unfold btGattServerNew
    rw [if_neg (by simp only [reduceCtorEq, or_self, not_false_eq_true])]
    dsimp only
    rw [hrefs]
    simp only [World.new, hrun]
  · intro p x hpa hpd hp
    have hpg : p ≠ .block (w.heap.next A) := Heap.ne_next_of_get hp
    exact (Heap.get_put_of_ne hpg).trans (hkeep p x hpa hpd (Heap.get_alloc_of_get hp))

end Sharing

end Wallclock.Creation
