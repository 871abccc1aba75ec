import Wallclock.Theory.Objects

/-!
# All or Nothing

What a failing `server_create` leaves behind.

All failures share one label. Up to the registration of the disconnect callback
it undoes exactly what has been done, and `serverCreate_early` says that the
heap is as it was. Behind it `device_name` points to a string literal, and the
label releases that too. `createRest_null` is the whole argument: whatever has
failed, there is a fault more than before. `allReleased_iff` puts the two
together.

The literal is not all that is wrong. `serverCreate_leaks` looks at a failure of
`populate_db`: the label takes the references of the transport and of the
database away, but not those of the GATT server, and the three stay. The main
loop still has the transport's entry, and from there
`freed_server_reached` follows the pointers to the server that was released.

`serverCreate_table` and `serverCreate_session` compare this model with that of
the loop, where sessions are reference counts and descriptors.

## Main definitions

* `Outcome.FailsEarly`: A failure before the device name is set.
* `attributesOf`: What the first steps of `populate_db` add.
* `createRest`: The code behind the registration.
* `Outcome.Usual`: Only `bt_att_new` and `populate_db` can fail.
* `Refers`, `LeadsTo`: Pointers, and chains of them from the main loop.
* `AllReleased`: Nothing is left.
* `World.empty`, `Outcome.success`: Samples.

## Theorems

* `fail_attached`, `fail_sharing`, `fail_static`: The label `fail`.
* `createRest_null`: A failure behind the registration is a fault.
* `createRest_populate`: The objects at `populate_db`.
* `server_mem_attributesOf`: The server is in the database.
* `attached_btAttNew`, `serverCreate_attached`: The objects at the registration.
* `serverCreate_early`: A failure before it.
* `serverCreate_populate`: The objects at `populate_db`, for the whole function.
* `serverCreate_leaks`: What a failure of `populate_db` leaves behind.
* `freed_server_reached`: It leads to the server.
* `serverCreate_table`, `serverCreate_session`: The model of the loop.
* `allReleased_iff`: When nothing is left.
* `allReleased_no_transport`: A failure that leaves nothing.
* `attribute_write_fails`: A failure that does.
-/

namespace Wallclock.Creation

open Descriptor

/-- Whether the failure comes before the server has its device name. -/
def Outcome.FailsEarly (o : Outcome) (fd : ℕ) (epollFd : Option ℕ) : Prop :=
  o.server = false ∨ (epollFd = none ∨ o.att.succeeds fd = false) ∨ o.closeOnUnref = false ∨
    o.registerDisconnect = false

/-- The code of `server_create` behind the disconnect registration. -/
def createRest (A : Allocator) (o : Outcome) (server : ℕ) (att : Pointer) (w : World) :
    Pointer × World :=
  match gattDbNew A o.db w with
  | (.null, w) => (.null, fail server ⟨att, .null, .static⟩ w)
  | (db, w) =>
    match btGattServerNew A db att o.handlers w with
    | (.null, w) => (.null, fail server ⟨att, db, .static⟩ w)
    | (_, w) =>
      match populateDb server db o.steps w with
      | (false, w) => (.null, fail server ⟨att, db, .static⟩ w)
      | (true, w) => (.block server, w)

/-- The attributes that the first steps of `populate_db` add. -/
def attributesOf (server steps : ℕ) : List Pointer :=
  (populateSteps.take steps).flatMap (Step.added server)

section Label

variable {A : Allocator} {o : Outcome} {w : World} {a d g server fd : ℕ} {t : Transport}

/-- At the label `fail`, with nothing but a transport. -/
theorem fail_attached {h : Heap Object} {t : Transport} {m : ℕ → Option ℕ}
    (hw : Attached A fd m (h.alloc A .server) t w) :
    (fail (h.next A)
        ⟨.block ((h.alloc A .server).next A), .null, .null⟩ w).heap = h ∧
      (fail (h.next A)
        ⟨.block ((h.alloc A .server).next A), .null, .null⟩ w).mainloop
          = Function.update m fd none := by
  have hunref := hw.unref
  simp only [fail, gattDbUnref_null, World.free_null]
  refine ⟨?_, hunref.2⟩
  rw [World.heap_free, hunref.1, Heap.free_alloc]

/-- At the label `fail`, the references that the GATT server holds remain. -/
theorem fail_sharing {attributes : List Pointer} (hw : Sharing a d g t w)
    (hd : w.heap.get (.block d) = some (.db ⟨2, attributes⟩))
    (hserver : w.heap.get (.block server) = some .server) {w' : World}
    (hw' : fail server ⟨.block a, .block d, .static⟩ w = w') :
    w'.heap.get (.block a) = some (.att { t with refCount := 1 }) ∧
      w'.heap.get (.block d) = some (.db ⟨1, attributes⟩) ∧
      w'.heap.get (.block g) = w.heap.get (.block g) ∧
      w'.heap.get (.block server) = none ∧ w'.table = w.table ∧ w'.mainloop = w.mainloop := by
  rcases hw.gatt with ⟨s, hs, _, _⟩
  -- The four blocks differ, as their contents do.
  have had := Heap.ne_of_get hw.att hd Object.noConfusion
  have hgd := Heap.ne_of_get hs hd Object.noConfusion
  have hga := Heap.ne_of_get hs hw.att Object.noConfusion
  have has := Heap.ne_of_get hw.att hserver Object.noConfusion
  have hds := Heap.ne_of_get hd hserver Object.noConfusion
  have hgs := Heap.ne_of_get hs hserver Object.noConfusion
  have hatt₁ : ((w.put d (.db ⟨1, attributes⟩)).free .static).heap.get (.block a)
      = some (.att t) := (Heap.get_put_of_ne had).trans hw.att
  have hcount := hw.attCount
  -- Two references and the server are released.
  have heq : w' = (((w.put d (.db ⟨1, attributes⟩)).free .static).put a
      (.att { t with refCount := 1 })).free (.block server) := by
    rw [← hw']
    unfold fail
    rw [gattDbUnref_shared hd (Nat.lt_succ_self 1)]
    dsimp only
    rw [btAttUnref_shared hatt₁ (by omega) (by omega), hcount]
  rw [heq]
  refine ⟨?_, ?_, ?_, Heap.get_free_self _ server, rfl, rfl⟩
  · rw [World.heap_free, Heap.get_free_of_ne has]
    exact Heap.get_put hatt₁
  · rw [World.heap_free, Heap.get_free_of_ne hds, World.heap_put, Heap.get_put_of_ne had.symm]
    exact Heap.get_put hd
  · rw [World.heap_free, Heap.get_free_of_ne hgs, World.heap_put, Heap.get_put_of_ne hga]
    exact Heap.get_put_of_ne hgd

/-- The label `fail` releases a string literal once the device name is set. -/
theorem fail_static (server : ℕ) (att db : Pointer) (w : World) :
    w.heap.faults.length < (fail server ⟨att, db, .static⟩ w).heap.faults.length := by
  -- One fault for the string, and none of the others is taken back.
  have hdb := (faults_gattDbUnref db w).length_le
  have hrest := ((faults_btAttUnref att ((gattDbUnref db w).free .static)).trans
    (faults_free _ (.block server))).length_le
  have hstatic : ((gattDbUnref db w).free .static).heap.faults.length
      = (gattDbUnref db w).heap.faults.length + 1 := List.length_append
  unfold fail
  dsimp only
  omega

/-- A failure behind the registration releases it. -/
theorem createRest_null {o : Outcome} {server : ℕ} {att : Pointer} {r : Pointer × World}
    (hr : createRest A o server att w = r) (hnull : r.1 = .null) :
    w.heap.faults.length < r.2.heap.faults.length := by
  have hdb := (faults_gattDbNew A o.db w).length_le
  -- Each failure comes to the label with the device name set.
  unfold createRest at hr
  split at hr
  · next w₁ hnew =>
    rw [hnew] at hdb
    rw [← hr]
    exact Nat.lt_of_le_of_lt hdb (fail_static _ _ _ w₁)
  · next db w₁ _ hnew =>
    have hgatt := (faults_btGattServerNew A db att o.handlers w₁).length_le
    rw [hnew] at hdb
    split at hr
    · next w₂ hcall =>
      rw [hcall] at hgatt
      rw [← hr]
      exact Nat.lt_of_le_of_lt (hdb.trans hgatt) (fail_static _ _ _ w₂)
    · next w₂ _ hcall =>
      have hsteps := (faults_runSteps server db populateSteps o.steps w₂).length_le
      rw [hcall] at hgatt
      rw [← populateDb] at hsteps
      split at hr
      · next w₃ hrun =>
        rw [hrun] at hsteps
        rw [← hr]
        exact Nat.lt_of_le_of_lt (hdb.trans (hgatt.trans hsteps)) (fail_static _ _ _ w₃)
      · rw [← hr] at hnull
        exact absurd hnull (fun h => Pointer.noConfusion h)

/-- The code behind the registration, where only `populate_db` fails. -/
theorem createRest_populate {o : Outcome} (hatt : w.heap.get (.block a) = some (.att t))
    (hcount : t.refCount = 1) (hio : t.io ≠ none)
    (hserver : w.heap.get (.block server) = some .server) (hdb : o.db = true)
    (hhandlers : attHandlers.length ≤ o.handlers) : ∃ d g t' w',
    createRest A o server (.block a) w
      = (if populateSteps.length ≤ o.steps then (.block server, w')
        else (.null, fail server ⟨.block a, .block d, .static⟩ w')) ∧
    Sharing a d g t' w' ∧ t'.io = t.io ∧ t'.crypto = t.crypto ∧
    w'.heap.get (.block d) = some (.db ⟨2, attributesOf server o.steps⟩) ∧
    w'.heap.get (.block server) = some .server ∧
    w'.table = w.table ∧ w'.mainloop = w.mainloop := by
  have hnew := gattDbNew_succeeds A w
  have hatt₁ : (World.mk (w.heap.alloc A (.db ⟨1, []⟩)) w.table w.mainloop).heap.get (.block a)
      = some (.att t) := Heap.get_alloc_of_get hatt
  have hserver₁ : (World.mk (w.heap.alloc A (.db ⟨1, []⟩)) w.table w.mainloop).heap.get
      (.block server) = some .server := Heap.get_alloc_of_get hserver
  rcases btGattServerNew_succeeds (A := A) hatt₁ hcount hio Heap.get_alloc hhandlers
    with ⟨t', w₂, hgatt, hsharing, hio', hcrypto, hd₂, hkeep, htable, hmainloop⟩
  rcases runSteps_live server populateSteps o.steps hd₂
    with ⟨w₃, hrun, hd₃, honly⟩
  -- The steps write to the database only.
  have hne : ∀ {p x}, w₂.heap.get p = some x → x ≠ .db ⟨2, []⟩ → w₃.heap.get p = some x :=
    fun {p x} hp hx => (honly.get p (Heap.ne_of_get hp hd₂ hx)).trans hp
  have hserver₂ : w₂.heap.get (.block server) = some .server :=
    hkeep _ _ (Heap.ne_of_get hserver hatt Object.noConfusion) (Heap.ne_next_of_get hserver)
      hserver₁
  rcases hsharing.gatt with ⟨s, hs, hscount, hsdb⟩
  refine ⟨w.heap.next A, _, t', w₃, ?_, ⟨hne hsharing.att Object.noConfusion,
    hsharing.attCount, hsharing.handler, ⟨_, hd₃⟩, ⟨s, hne hs Object.noConfusion, hscount, hsdb⟩⟩,
    hio', hcrypto, hd₃, hne hserver₂ Object.noConfusion, honly.table.trans htable,
    honly.mainloop.trans hmainloop⟩
  unfold createRest populateDb
  rw [hdb, hnew]
  dsimp only
  rw [hgatt]
  dsimp only
  rw [hrun]
  by_cases hall : populateSteps.length ≤ o.steps
  · rw [if_pos hall, decide_eq_true hall]
  · rw [if_neg hall, decide_eq_false hall]

/-- From the first characteristic on, an attribute has the server as its user
    data. -/
theorem server_mem_attributesOf {steps : ℕ} (h : 2 ≤ steps) :
    .block server ∈ attributesOf server steps := by
  obtain ⟨k, rfl⟩ : ∃ k, steps = k + 2 := ⟨steps - 2, by omega⟩
  have htake : populateSteps.take (k + 2)
      = [.addService, .addCharacteristic true] ++ (populateSteps.drop 2).take k := rfl
  unfold attributesOf
  rw [htake, List.flatMap_append]
  exact List.mem_append_left _ (by simp only [List.flatMap_cons, Step.added, List.mem_append,
    List.mem_cons, if_true, true_or, or_true])

end Label

section Creation

variable {K A : Allocator} {o : Outcome} {fd : ℕ} {epollFd : Option ℕ} {w : World}

/-- The transport that `bt_att_new` makes. -/
theorem attached_btAttNew (hepoll : epollFd ≠ none) (hatt : o.att.succeeds fd = true) :
    ∃ t w', btAttNew K A o.att fd epollFd w = (.block (w.heap.next A), w') ∧
      Attached A fd w.mainloop w.heap t w' ∧
      t.io = some ⟨fd, false⟩ ∧ t.crypto = (btCryptoNew K o.att.crypto w.table).1 ∧
      t.notifyList = [] ∧ w'.table = (btCryptoNew K o.att.crypto w.table).2 :=
  ⟨{ Transport.fresh fd (btCryptoNew K o.att.crypto w.table).1 with refCount := 1 }, _,
    btAttNew_succeeds hepoll hatt, ⟨rfl, rfl, ⟨_, rfl, rfl⟩, rfl⟩, rfl, rfl, rfl, rfl⟩

/-- With a transport, `server_create` comes to the label `fail` or to the code
    behind the registration. -/
theorem serverCreate_attached (hserver : o.server = true) (hepoll : epollFd ≠ none)
    (hatt : o.att.succeeds fd = true) : ∃ t w₁,
    Attached A fd w.mainloop (w.heap.alloc A .server) t w₁ ∧
    t.io = some ⟨fd, o.closeOnUnref⟩ ∧ t.crypto = (btCryptoNew K o.att.crypto w.table).1 ∧
    t.notifyList = [] ∧ w₁.table = (btCryptoNew K o.att.crypto w.table).2 ∧
    serverCreate K A o fd epollFd w =
      if o.closeOnUnref && o.registerDisconnect then
        createRest A o (w.heap.next A) (.block ((w.heap.alloc A .server).next A)) w₁
      else (.null, fail (w.heap.next A)
        ⟨.block ((w.heap.alloc A .server).next A), .null, .null⟩ w₁) := by
  rcases @attached_btAttNew K A o fd epollFd (w.new A .server).2 hepoll hatt
    with ⟨t, w₁, hnew, hw₁, hio, hcrypto, hnotify, htable⟩
  -- Neither call changes what else the transport has.
  rcases hw₁.setCloseOnUnref o.closeOnUnref with ⟨t₂, w₂, hclose, hw₂, hio₂, hcrypto₂, hnotify₂,
    htable₂⟩
  rw [hcrypto] at hcrypto₂
  rw [hnotify] at hnotify₂
  rw [htable] at htable₂
  unfold serverCreate
  simp only [hserver, Bool.not_true, Bool.false_eq_true, if_false, hnew]
  simp only [World.new] at hclose ⊢
  simp only [hclose]
  cases hflag : o.closeOnUnref with
  | false =>
      rw [hflag, hio] at hio₂
      exact ⟨t₂, w₂, hw₂, hio₂, hcrypto₂, hnotify₂, htable₂, rfl⟩
  | true =>
      rcases hw₂.registerDisconnect o.registerDisconnect with ⟨id, t₃, w₃, hregister, hid, hw₃,
        hio₃, hcrypto₃, hnotify₃, htable₃⟩
      rw [hflag, hio] at hio₂
      refine ⟨t₃, w₃, hw₃, hio₃.trans hio₂, hcrypto₃.trans hcrypto₂, hnotify₃.trans hnotify₂,
        htable₃.trans htable₂, ?_⟩
      simp only [World.new] at hregister
      simp only [hregister, Bool.true_and]
      cases hok : o.registerDisconnect with
      | false =>
          rw [hid.mpr hok]
          rfl
      | true =>
          obtain ⟨n, rfl⟩ : ∃ n, id = n + 1 := Nat.exists_eq_succ_of_ne_zero fun h0 =>
            absurd ((hid.mp h0).symm.trans hok) Bool.noConfusion
          rfl

/-- An early failure leaves the heap as it was and adds no entry. -/
theorem serverCreate_early (hfails : o.FailsEarly fd epollFd) :
    (serverCreate K A o fd epollFd w).1 = .null ∧
      (serverCreate K A o fd epollFd w).2.heap = w.heap ∧
      ∀ n b, (serverCreate K A o fd epollFd w).2.mainloop n = some b → w.mainloop n = some b := by
  -- The allocation of the server fails, then that of the transport, then one of the two calls.
  cases hserver : o.server with
  | false =>
      simp only [serverCreate, hserver, Bool.not_false, if_true]
      exact ⟨trivial, trivial, fun _ _ hn => hn⟩
  | true =>
      have hbehind := hfails.resolve_left (by rw [hserver]; exact Bool.noConfusion)
      by_cases hatt : epollFd = none ∨ o.att.succeeds fd = false
      · rcases @btAttNew_fails K A (w.new A .server).2 fd o.att epollFd hatt with ⟨m, hnew, hm⟩
        simp only [serverCreate, hserver, Bool.not_true, Bool.false_eq_true, if_false, hnew, fail,
          gattDbUnref_null, World.free_null, btAttUnref_null]
        exact ⟨trivial, Heap.free_alloc, hm⟩
      · have hflags := hbehind.resolve_left hatt
        rw [not_or, Bool.not_eq_false] at hatt
        rcases @serverCreate_attached K A o fd epollFd w hserver hatt.1 hatt.2
          with ⟨t, w₁, hw₁, _, _, _, _, heq⟩
        have hfail := fail_attached hw₁
        have hnot : (o.closeOnUnref && o.registerDisconnect) = false := by
          rcases hflags with hflag | hflag
          · rw [hflag, Bool.false_and]
          · rw [hflag, Bool.and_false]
        rw [heq, hnot, if_neg Bool.false_ne_true]
        refine ⟨rfl, hfail.1, fun n b hn => ?_⟩
        rw [hfail.2] at hn
        exact cleared_subset hn

/-- The outcomes in which only `bt_att_new` and `populate_db` fail. -/
structure Outcome.Usual (o : Outcome) : Prop where
  server : o.server = true
  closeOnUnref : o.closeOnUnref = true
  registerDisconnect : o.registerDisconnect = true
  db : o.db = true
  handlers : attHandlers.length ≤ o.handlers

/-- What is left when `server_create` comes to `populate_db`. -/
theorem serverCreate_populate (ho : o.Usual) (hepoll : epollFd ≠ none)
    (hatt : o.att.succeeds fd = true) : ∃ a d g t w',
    serverCreate K A o fd epollFd w
      = (if populateSteps.length ≤ o.steps then (.block (w.heap.next A), w')
        else (.null, fail (w.heap.next A) ⟨.block a, .block d, .static⟩ w')) ∧
    Sharing a d g t w' ∧ t.io = some ⟨fd, true⟩ ∧
    t.crypto = (btCryptoNew K o.att.crypto w.table).1 ∧
    w'.heap.get (.block d) = some (.db ⟨2, attributesOf (w.heap.next A) o.steps⟩) ∧
    w'.heap.get (.block (w.heap.next A)) = some .server ∧
    w'.table = (btCryptoNew K o.att.crypto w.table).2 ∧ w'.mainloop fd = some a := by
  rcases @serverCreate_attached K A o fd epollFd w ho.server hepoll hatt
    with ⟨t, w₁, hw₁, hio, hcrypto, _, htable, heq⟩
  rw [ho.closeOnUnref] at hio
  rw [ho.closeOnUnref, ho.registerDisconnect, Bool.and_self, if_pos rfl] at heq
  -- The transport is behind the server on the heap.
  have hserver : w₁.heap.get (.block (w.heap.next A)) = some .server := by
    rw [hw₁.heap]
    exact Heap.get_alloc_of_get Heap.get_alloc
  rcases createRest_populate (A := A) hw₁.get hw₁.count hw₁.io_ne_none hserver ho.db ho.handlers
    with ⟨d, g, t', w', hrest, hsharing, hio', hcrypto', hd, hserver', htable', hmainloop⟩
  refine ⟨_, d, g, t', w', heq.trans hrest, hsharing, hio'.trans hio, hcrypto'.trans hcrypto, hd,
    hserver', htable'.trans htable, ?_⟩
  rw [hmainloop, hw₁.mainloop, Function.update_self]

/-- A failure of `populate_db` leaves the transport, the database and the GATT
    server with one reference each, reachable from the main loop, while the
    server that the attributes point to is gone. -/
theorem serverCreate_leaks (ho : o.Usual) (hepoll : epollFd ≠ none)
    (hatt : o.att.succeeds fd = true) (hsteps : o.steps < populateSteps.length) :
    ∃ a d g t s w', serverCreate K A o fd epollFd w = (.null, w') ∧ w'.mainloop fd = some a ∧
      w'.heap.get (.block a) = some (.att t) ∧ t.refCount = 1 ∧
      (∃ n ∈ t.notifyList, n.userData = .block g) ∧
      w'.heap.get (.block g) = some (.gatt s) ∧ s.refCount = 1 ∧ s.db = .block d ∧
      w'.heap.get (.block d) = some (.db ⟨1, attributesOf (w.heap.next A) o.steps⟩) ∧
      w'.heap.get (.block (w.heap.next A)) = none := by
  rcases @serverCreate_populate K A o fd epollFd w ho hepoll hatt
    with ⟨a, d, g, t, w₃, heq, hsharing, _, _, hd, hserver, _, hentry⟩
  rcases fail_sharing hsharing hd hserver rfl with ⟨ha', hd', hg', hs', _, hmainloop⟩
  rcases hsharing.gatt with ⟨s, hs, hscount, hsdb⟩
  rw [if_neg (Nat.not_le.mpr hsteps)] at heq
  exact ⟨a, d, g, _, s, _, heq, (congrFun hmainloop fd).trans hentry, ha', rfl, hsharing.handler,
    hg'.trans hs, hscount, hsdb, hd', hs'⟩

/-- The descriptors are those of the model of the loop, whatever the outcome. -/
theorem serverCreate_table (ho : o.Usual) :
    (serverCreate K A o fd epollFd w).2.table
      = (Wallclock.serverCreate K ⟨o.att, decide (populateSteps.length ≤ o.steps)⟩ fd epollFd
          w.table).2 := by
  by_cases hatt : epollFd = none ∨ o.att.succeeds fd = false
  · rw [serverCreate_failed hatt]
    rcases @btAttNew_fails K A (w.new A .server).2 fd o.att epollFd hatt with ⟨m, hnew, _⟩
    simp only [serverCreate, ho.server, Bool.not_true, Bool.false_eq_true, if_false, hnew, fail,
      gattDbUnref_null, World.free_null, btAttUnref_null]
    rfl
  · rw [not_or, Bool.not_eq_false] at hatt
    rw [serverCreate_succeeds hatt.1 hatt.2]
    rcases @serverCreate_populate K A o fd epollFd w ho hatt.1 hatt.2
      with ⟨a, d, g, t, w₃, heq, hsharing, _, _, hd, hserver, htable, _⟩
    rw [heq]
    split
    · exact htable
    · exact (fail_sharing hsharing hd hserver rfl).2.2.2.2.1.trans htable

/-- A server that is created has the objects of a session in the model of the
    loop. -/
theorem serverCreate_session (ho : o.Usual) {s : Session} {t : Table}
    (hcreated : Wallclock.serverCreate K ⟨o.att, decide (populateSteps.length ≤ o.steps)⟩ fd epollFd
      w.table = (.created s, t)) :
    ∃ a d g tr db gatt w', serverCreate K A o fd epollFd w = (.block (w.heap.next A), w') ∧
      w'.heap.get (.block a) = some (.att tr) ∧ tr.toAtt = s.att ∧
      w'.heap.get (.block d) = some (.db db) ∧ db.refCount = s.db ∧
      w'.heap.get (.block g) = some (.gatt gatt) ∧ gatt.refCount = s.gatt := by
  -- Without a transport or without the database, nothing is created in either model.
  by_cases hatt : epollFd = none ∨ o.att.succeeds fd = false
  · rw [serverCreate_failed hatt, Prod.mk.injEq] at hcreated
    exact Created.noConfusion hcreated.1
  · rw [not_or, Bool.not_eq_false] at hatt
    rw [serverCreate_succeeds hatt.1 hatt.2, Prod.mk.injEq] at hcreated
    by_cases hall : populateSteps.length ≤ o.steps
    · rcases @serverCreate_populate K A o fd epollFd w ho hatt.1 hatt.2
        with ⟨a, d, g, tr, w₃, heq, hsharing, hio, hcrypto, hd, _, _, _⟩
      rcases hsharing.gatt with ⟨gatt, hg, hgcount, _⟩
      rw [if_pos (decide_eq_true hall), Created.created.injEq] at hcreated
      have hsame : tr.toAtt = ⟨tr.refCount, tr.io, tr.crypto⟩ := rfl
      rw [if_pos hall] at heq
      rw [hsharing.attCount, hio, hcrypto] at hsame
      refine ⟨a, d, g, tr, _, gatt, w₃, heq, hsharing.att, ?_, hd, ?_, hg, ?_⟩
      · rw [hsame, ← hcreated.1]
      · rw [← hcreated.1]
      · rw [hgcount, ← hcreated.1]
    · rw [if_neg (by rw [decide_eq_true_eq]; exact hall)] at hcreated
      exact Created.noConfusion hcreated.1

end Creation

/-- A block holds a pointer to another. -/
inductive Refers (h : Heap Object) : ℕ → ℕ → Prop
  | handler {a b : ℕ} {t : Transport} {n : Notify} (ha : h.get (.block a) = some (.att t))
      (hn : n ∈ t.notifyList) (hb : n.userData = .block b) : Refers h a b
  | gattDb {g b : ℕ} {s : Gatt} (hg : h.get (.block g) = some (.gatt s)) (hb : s.db = .block b) :
      Refers h g b
  | gattAtt {g b : ℕ} {s : Gatt} (hg : h.get (.block g) = some (.gatt s)) (hb : s.att = .block b) :
      Refers h g b
  | callback {d b : ℕ} {s : Db} (hd : h.get (.block d) = some (.db s))
      (hb : .block b ∈ s.userData) : Refers h d b

/-- An entry of the main loop leads to a block. -/
def LeadsTo (w : World) (n b : ℕ) : Prop :=
  ∃ a, w.mainloop n = some a ∧ Relation.ReflTransGen (Refers w.heap) a b

/-- What the main loop still has leads to the server that has been released. -/
theorem freed_server_reached {K A : Allocator} {o : Outcome} {fd : ℕ} {epollFd : Option ℕ}
    {w : World} (ho : o.Usual) (hepoll : epollFd ≠ none) (hatt : o.att.succeeds fd = true)
    (hcharacteristic : 2 ≤ o.steps) (hsteps : o.steps < populateSteps.length) :
    (serverCreate K A o fd epollFd w).2.heap.get (.block (w.heap.next A)) = none ∧
      LeadsTo (serverCreate K A o fd epollFd w).2 fd (w.heap.next A) := by
  rcases @serverCreate_leaks K A o fd epollFd w ho hepoll hatt hsteps
    with ⟨a, d, g, t, s, w', heq, hentry, ha, _, ⟨n, hn, hng⟩, hg, _, hsd, hd, hserver⟩
  rw [heq]
  have hhandler : Refers w'.heap a g := .handler ha hn hng
  have hdatabase : Refers w'.heap g d := .gattDb hg hsd
  have hcallback : Refers w'.heap d (w.heap.next A) :=
    .callback hd (server_mem_attributesOf hcharacteristic)
  exact ⟨hserver, a, hentry, ((Relation.ReflTransGen.single hhandler).tail hdatabase).tail
    hcallback⟩

/-- Everything that was acquired has been released and nothing else has been:
    the live blocks are those on entry, and every release was one of a live
    block. No pointer has been added, neither from the main loop nor from a
    database. -/
structure AllReleased (w w' : World) : Prop where
  blocks : w'.heap.blocks = w.heap.blocks
  faults : w'.heap.faults = w.heap.faults
  mainloop : ∀ n b, LeadsTo w' n b → LeadsTo w n b
  callbacks : ∀ a b, Refers w'.heap a b → Refers w.heap a b

/-- A failing `server_create` has released everything exactly if it has failed
    before the device name was set. -/
theorem allReleased_iff (K A : Allocator) (o : Outcome) (fd : ℕ) (epollFd : Option ℕ) (w : World)
    (hnull : (serverCreate K A o fd epollFd w).1 = .null) :
    AllReleased w (serverCreate K A o fd epollFd w).2 ↔ o.FailsEarly fd epollFd := by
  constructor
  · intro hall
    by_contra hlate
    unfold Outcome.FailsEarly at hlate
    push Not at hlate
    rcases hlate with ⟨hserver, ⟨hepoll, hatt⟩, hclose, hregister⟩
    rw [Bool.ne_false_iff] at hserver hatt hclose hregister
    -- Behind the registration the device name is set, and its release a fault.
    rcases @serverCreate_attached K A o fd epollFd w hserver hepoll hatt
      with ⟨t, w₁, hw₁, _, _, _, _, heq⟩
    rw [hclose, hregister, Bool.and_self, if_pos rfl] at heq
    have hmore := createRest_null heq.symm hnull
    have hsame : w₁.heap.faults = w.heap.faults := by rw [hw₁.heap]; rfl
    rw [hsame, hall.faults] at hmore
    exact absurd hmore (lt_irrefl _)
  · intro hfails
    rcases @serverCreate_early K A o fd epollFd w hfails with ⟨_, hheap, hmainloop⟩
    refine ⟨by rw [hheap], by rw [hheap], ?_, fun a b h => ?_⟩
    · rintro n b ⟨a, hentry, hpath⟩
      rw [hheap] at hpath
      exact ⟨a, hmainloop n a hentry, hpath⟩
    · rw [hheap] at h
      exact h

/-- The state in which nothing has been allocated or opened. -/
def World.empty : World := ⟨⟨∅, []⟩, ⟨∅, {4, 5}, []⟩, fun _ => none⟩

/-- Everything succeeds. -/
def Outcome.success : Outcome :=
  ⟨true, ⟨true, ⟨true, true, true, true, true⟩, true, true, true, true⟩, true, true, true, 12, 15⟩

/-- The transport cannot be set up. -/
theorem allReleased_no_transport : AllReleased .empty
    (serverCreate .lowest .lowest { Outcome.success with
      att := { Outcome.success.att with buf := false } } 5 (some 4) .empty).2 :=
  (allReleased_iff .lowest .lowest { Outcome.success with
    att := { Outcome.success.att with buf := false } } 5 (some 4) .empty (by decide)).mpr
    (Or.inr (Or.inl (Or.inr (by decide))))

/-- The device name cannot be written to the database. -/
theorem attribute_write_fails :
    let r := serverCreate .lowest .lowest { Outcome.success with steps := 2 } 5 (some 4) .empty
    r.1 = .null ∧ r.2.heap.faults = [.static] ∧ r.2.heap.get (.block 0) = none ∧
      r.2.mainloop 5 = some 1 ∧ r.2.heap.get (.block 2) = some (.db ⟨1, [.null, .null, .block 0]⟩) ∧
      ¬AllReleased .empty r.2 := by
  refine ⟨by decide, by decide, by decide, by decide, by decide, fun hall => ?_⟩
  have hfaults := hall.faults
  revert hfaults
  decide

end Wallclock.Creation
