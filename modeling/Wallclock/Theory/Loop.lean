import Wallclock.Theory.Session

/-!
# Descriptors over the Whole Loop

What the server loop leaves open, and what it closes twice.

`iterate_idle`, `iterate_gone` and `iterate_returns` say what an iteration does
to the table and to the reference counts: nothing without a connection,
nothing that matters where the process ends, and otherwise what
`Theory.Session` found out about `gatt_service`, with two more closes after it.

The first of these is a mistake every time. The connection's descriptor has
been closed inside `gatt_service`, by the disconnect or on the failure path.
The closes after the loop repeat those of the last iteration, or close the
zero the static variables start with. So a run is free of mistaken closes
exactly if it gets to neither place (`strays_iff`).

An iteration is balanced if it gets no epoll descriptor for a connection. With
one, either the epoll descriptor stays open or a transport stays referenced,
and `clean_iff` says that a run returns to the loop head with nothing open and
nothing referenced exactly if no iteration went that far.

## Main definitions

* `Iteration.accepts`: The outcomes with a connection.
* `Proc.acceptedFd`: The descriptor a connection would get.
* `Proc.connected`: The state in which `gatt_service` is called.
* `Settled`: The static descriptor of the connection is not open.
* `LoopEvent.Recloses`: The event gets to a close that repeats another.
* `Proc.next`: The state an event leads to from the loop head.
* `Proc.Clean`: Nothing is open or referenced at the loop head.
* `Iteration.session`, `Iteration.timeout`: Two outcomes.

## Theorems

* `iterate_idle`: An iteration without a connection.
* `iterate_connected`: An iteration with one, in terms of `gatt_service`.
* `acceptedFd_fresh`: The descriptors of an iteration are new.
* `iterate_gone`: An iteration in which the process ends.
* `iterate_returns`: An iteration in which `gatt_service` returns.
* `settled_start`, `settled_iterate`: The static descriptor is not open at the
  loop head.
* `strays_iterate`, `strays_leave`: The mistaken closes of an event.
* `step_looping`: A step from the loop head.
* `run_stopped`: After the loop nothing changes.
* `strays_reaches`, `strays_iff`: The runs without mistaken closes.
* `reaches_looping`: A run that comes back to the loop head only iterates.
* `clean_iterate`: When an iteration leaves nothing behind.
* `clean_reaches`: When a run leaves nothing behind.
* `inherited_iterate`, `inherited_reaches`: Nothing is added to the inherited
  descriptors.
* `acceptedFd_le`: A bound on an accepted descriptor.
* `clean_iff`: The runs that leave nothing behind.
* `session_leaks`: A session leaves a reference and three descriptors.
* `clean_iff_timeout`: An iteration without a client leaves nothing.
* `session_recloses`: A session closes its descriptor twice.
* `strays_iff_timeout`: An iteration without a client does not.
-/

namespace Wallclock

open Descriptor StepMachine

/-- The outcomes of an iteration that accept a connection. -/
def Iteration.accepts (o : Iteration) : Bool :=
  o.advertOpen && o.advert && o.openDev && o.accept.succeeds

/-- The descriptor a connection accepted in this iteration gets: the device
    and the listening socket have been opened before it. -/
def Proc.acceptedFd (K : Allocator) (p : Proc) : ℕ :=
  (((p.table.openNew K).2.openNew K).2.openNew K).1

variable {K : Allocator} {p : Proc} {o : Iteration}

/-- Without a connection an iteration closes what it has opened. -/
theorem iterate_idle (h : o.accepts = false) :
    (p.iterate K o).table = p.table ∧ (p.iterate K o).refs = p.refs ∧
      ((p.iterate K o).phase = .gone ∨ (p.iterate K o).phase = p.phase) ∧
      ((p.iterate K o).fd = p.fd ∨ (p.iterate K o).fd = none) := by
  unfold Proc.iterate
  rw [restartAdvert_eq]
  -- The steps before a connection, in their order.
  cases hadvertOpen : o.advertOpen with
  | false =>
      simp only [Bool.not_false, if_true]
      exact ⟨trivial, trivial, Or.inl trivial, Or.inl trivial⟩
  | true =>
      cases hadvert : o.advert with
      | false =>
          simp only [Bool.not_true, Bool.false_eq_true, if_false, Bool.not_false, if_true]
          exact ⟨trivial, trivial, Or.inr trivial, Or.inl trivial⟩
      | true =>
          cases hdev : o.openDev with
          | false =>
              simp only [Bool.not_true, Bool.false_eq_true, if_false, Bool.not_false, if_true]
              exact ⟨trivial, trivial, Or.inl trivial, Or.inl trivial⟩
          | true =>
              have haccept : o.accept.succeeds = false := by
                simpa only [Iteration.accepts, hadvertOpen, hadvert, hdev, Bool.true_and] using h
              simp only [Bool.not_true, Bool.false_eq_true, if_false, l2capLeAttListenAndAccept_eq,
                haccept, Table.close_openNew]
              exact ⟨trivial, trivial, Or.inr trivial, Or.inr trivial⟩

/-- The state in which `gatt_service` is called. -/
def Proc.connected (K : Allocator) (p : Proc) : Proc :=
  { p with
    dd := some (p.table.openNew K).1
    fd := some (p.acceptedFd K)
    table := { p.table with
      held := insert (p.acceptedFd K) (insert (p.table.openNew K).1 p.table.held) } }

/-- With a connection an iteration is `gatt_service` and two closes. -/
theorem iterate_connected (h : o.accepts = true) :
    p.iterate K o = if (gattService K o.gatt (p.acceptedFd K) (p.connected K)).phase = .gone then
        gattService K o.gatt (p.acceptedFd K) (p.connected K)
      else
        { gattService K o.gatt (p.acceptedFd K) (p.connected K) with
          table := ((gattService K o.gatt (p.acceptedFd K) (p.connected K)).table.close
            (some (p.acceptedFd K))).close (some (p.table.openNew K).1) } := by
  simp only [Iteration.accepts, Bool.and_eq_true] at h
  rcases h with ⟨⟨⟨hadvertOpen, hadvert⟩, hdev⟩, haccept⟩
  simp only [Proc.iterate, restartAdvert_eq, hadvertOpen, hadvert, hdev, haccept, Bool.not_true,
    Bool.false_eq_true, if_false, l2capLeAttListenAndAccept_eq, if_true]
  rfl

/-- The two descriptors of an iteration with a connection are new. -/
theorem acceptedFd_fresh (K : Allocator) (p : Proc) :
    (p.table.openNew K).1 ∉ p.table.held ∧ p.acceptedFd K ∉ p.table.held ∧
      p.acceptedFd K ≠ (p.table.openNew K).1 := by
  have hdd := Table.fresh_openNew K p.table
  have hfd := Table.fresh_openNew K ((p.table.openNew K).2.openNew K).2
  rw [Table.held_openNew, Table.held_openNew, Finset.mem_insert, Finset.mem_insert, not_or,
    not_or] at hfd
  exact ⟨hdd, hfd.2.2, hfd.2.1⟩

/-- Where the process ends in `gatt_service`, nothing has been closed by
    mistake. -/
theorem iterate_gone (h : o.accepts = true) (hgone : o.gatt.returns (p.acceptedFd K) = false) :
    (p.iterate K o).phase = .gone ∧ (p.iterate K o).table.strays = p.table.strays := by
  rcases gattService_gone (K := K) (p := p.connected K) hgone with ⟨hphase, hgrows⟩
  rw [iterate_connected h, if_pos hphase]
  exact ⟨hphase, hgrows.strays⟩

/-- Where `gatt_service` returns, the connection's descriptor is closed once
    more. Nothing else has been closed by mistake, and nothing is left open or
    referenced unless there was an epoll descriptor. -/
theorem iterate_returns (h : o.accepts = true) (hret : o.gatt.returns (p.acceptedFd K) = true)
    (hp : p.phase = .looping) :
    (p.iterate K o).phase = .looping ∧
      (p.iterate K o).table.strays = p.table.strays ++ [some (p.acceptedFd K)] ∧
      (p.iterate K o).fd = some (p.acceptedFd K) ∧
      p.acceptedFd K ∉ (p.iterate K o).table.held ∧
      p.table.held ⊆ (p.iterate K o).table.held ∧
      (p.iterate K o).table.inherited ⊆ p.table.inherited ∧
      (o.gatt.epollCreate = false → (p.iterate K o).table.held = p.table.held ∧
        (p.iterate K o).refs = p.refs ++ [⟨0, 0, 0⟩]) ∧
      (o.gatt.epollCreate = true → ∃ r, (p.iterate K o).refs = p.refs ++ [r] ∧
        (r.att ≠ 0 ∨ ∃ e ∈ (p.iterate K o).table.held, e ∉ p.table.held)) := by
  rcases acceptedFd_fresh K p with ⟨hdd, hfd, hne⟩
  have hmem : p.acceptedFd K ∈ (p.connected K).table.held := Finset.mem_insert_self _ _
  have hddmem : (p.table.openNew K).1 ∈ (p.connected K).table.held.erase (p.acceptedFd K) :=
    Finset.mem_erase.mpr ⟨hne.symm, Finset.mem_insert_of_mem (Finset.mem_insert_self _ _)⟩
  rcases gattService_returns (K := K) hmem hret with
    ⟨hphase, hstrays, hinherited, hclosed, hkept, hbalanced, hleft⟩
  rcases gattService_statics (K := K) o.gatt (p.acceptedFd K) (p.connected K) with ⟨hstatic, _⟩
  -- The close after `gatt_service` hits nothing; the one of the device does.
  have hnot : ∀ n, some (p.acceptedFd K) = some n →
      n ∉ (gattService K o.gatt (p.acceptedFd K) (p.connected K)).table.held := by
    intro n hn
    rw [← Option.some.inj hn]
    exact hclosed
  rcases Table.close_of_notMem hnot with ⟨hheld, hstray⟩
  have hsub := Table.inherited_close_subset
    (t := (gattService K o.gatt (p.acceptedFd K) (p.connected K)).table) (some (p.acceptedFd K))
  rw [hinherited] at hsub
  have hphase' : (gattService K o.gatt (p.acceptedFd K) (p.connected K)).phase ≠ .gone := by
    rw [hphase]
    exact fun hgone => absurd (hp.symm.trans hgone) (by decide)
  -- `gatt_service` has left the device open, so the last close finds it.
  have hlast := Table.close_of_mem (t := ((gattService K o.gatt (p.acceptedFd K)
    (p.connected K)).table.close (some (p.acceptedFd K)))) (n := (p.table.openNew K).1)
    (by rw [hheld]; exact hkept hddmem)
  rw [iterate_connected h, if_neg hphase', hlast]
  simp only [hheld, hstray, hstrays, hstatic, hphase]
  refine ⟨hp, rfl, rfl, ?_, ?_, hsub, ?_, ?_⟩
  · exact fun hn => hclosed (Finset.mem_of_mem_erase hn)
  · intro n hn
    refine Finset.mem_erase.mpr ⟨fun heq => hdd (heq ▸ hn), hkept (Finset.mem_erase.mpr ⟨?_, ?_⟩)⟩
    · exact fun heq => hfd (heq ▸ hn)
    · exact Finset.mem_insert_of_mem (Finset.mem_insert_of_mem hn)
  · intro hepoll
    rcases hbalanced hepoll with ⟨heq, hrefs⟩
    refine ⟨?_, hrefs⟩
    rw [heq, Proc.connected]
    simp only
    rw [Finset.erase_insert (by
        rw [Finset.mem_insert, not_or]
        exact ⟨hne, hfd⟩), Finset.erase_insert hdd]
  · intro hepoll
    rcases hleft hepoll with ⟨r, hrefs, hr⟩
    refine ⟨r, hrefs, hr.imp_right ?_⟩
    rintro ⟨e, he, hnew⟩
    simp only [Proc.connected, Finset.mem_insert, not_or] at hnew
    exact ⟨e, Finset.mem_erase.mpr ⟨hnew.2.1, he⟩, hnew.2.2⟩

/-- The static descriptor of the connection is not open. -/
def Settled (p : Proc) : Prop :=
  ∀ n, p.fd = some n → n ∉ p.table.held

theorem settled_start (inherited : Finset ℕ) : Settled (Proc.start inherited) :=
  fun _ _ => Finset.notMem_empty _

/-- Back at the loop head the static descriptor is not open. -/
theorem settled_iterate (hp : p.phase = .looping) (hs : Settled p)
    (hphase : (p.iterate K o).phase = .looping) : Settled (p.iterate K o) := by
  intro n hn
  by_cases haccepts : o.accepts = true
  · by_cases hret : o.gatt.returns (p.acceptedFd K) = true
    · rcases iterate_returns haccepts hret hp with ⟨_, _, hfd, hclosed, _⟩
      rw [hfd] at hn
      rw [← Option.some.inj hn]
      exact hclosed
    · rw [Bool.not_eq_true] at hret
      exact absurd (hphase.symm.trans (iterate_gone haccepts hret).1) (by decide)
  · rw [Bool.not_eq_true] at haccepts
    rcases iterate_idle (K := K) (p := p) haccepts with ⟨htable, _, _, hfd⟩
    rw [htable]
    rcases hfd with hfd | hfd
    · exact hs n (hfd ▸ hn)
    · rw [hfd] at hn
      exact absurd hn (by simp only [reduceCtorEq, not_false_eq_true])

/-- The event gets to a close that repeats another: the one after
    `gatt_service`, or those after the loop. -/
def LoopEvent.Recloses (K : Allocator) (p : Proc) : LoopEvent → Prop
  | .iterate o => o.accepts = true ∧ o.gatt.returns (p.acceptedFd K) = true
  | .leave => True

/-- An iteration makes a mistaken close exactly if `gatt_service` returns. -/
theorem strays_iterate (hp : p.phase = .looping) :
    (p.iterate K o).table.strays = [] ↔
      p.table.strays = [] ∧ ¬(LoopEvent.iterate o).Recloses K p := by
  unfold LoopEvent.Recloses
  by_cases haccepts : o.accepts = true
  · by_cases hret : o.gatt.returns (p.acceptedFd K) = true
    · rcases iterate_returns haccepts hret hp with ⟨_, hstrays, _⟩
      rw [hstrays]
      exact iff_of_false (List.append_ne_nil_of_right_ne_nil _ (List.cons_ne_nil _ _))
        (fun hc => hc.2 ⟨haccepts, hret⟩)
    · rw [(iterate_gone haccepts (Bool.not_eq_true _ ▸ hret)).2]
      exact ⟨fun h => ⟨h, fun hc => hret hc.2⟩, fun h => h.1⟩
  · rw [(iterate_idle (Bool.not_eq_true _ ▸ haccepts)).1]
    exact ⟨fun h => ⟨h, fun hc => haccepts hc.1⟩, fun h => h.1⟩

/-- The closes after the loop are mistaken. -/
theorem strays_leave (hs : Settled p) : p.leave.table.strays ≠ [] := by
  unfold Proc.leave
  refine Table.strays_close_ne_nil _ ?_
  rw [(Table.close_of_notMem hs).2]
  exact List.append_ne_nil_of_right_ne_nil _ (List.cons_ne_nil _ _)

/-- The state an event leads to from the loop head. -/
def Proc.next (K : Allocator) (p : Proc) : LoopEvent → Proc
  | .iterate o => p.iterate K o
  | .leave => p.leave

theorem step_looping {i : LoopEvent} {m : Proc} (hp : p.phase = .looping)
    (hm : ((loopMachine K).step p i).2 = some m) : m = p.next K i := by
  cases i with
  | iterate o =>
      simp only [loopMachine, hp, Option.some.injEq] at hm
      exact hm.symm
  | leave =>
      simp only [loopMachine, hp, Option.some.injEq] at hm
      exact hm.symm

/-- Once the loop has ended nothing changes. -/
theorem run_stopped {is : List LoopEvent} {p' : Proc} (hp : p.phase ≠ .looping)
    (hr : (loopMachine K).Reaches p is p') : p' = p := by
  refine reaches_invariant (fun q => q = p) ?_ rfl hr
  rintro q i q' rfl hstep
  unfold loopMachine at hstep
  cases hphase : q.phase with
  | looping => exact absurd hphase hp
  | left =>
      simp only [hphase, Option.some.injEq] at hstep
      exact hstep.symm
  | gone =>
      simp only [hphase, Option.some.injEq] at hstep
      exact hstep.symm

/-- A run makes no mistaken close exactly if no event of it gets to a close
    that repeats another. -/
theorem strays_reaches {is : List LoopEvent} {p' : Proc} (hs : p.phase = .looping → Settled p)
    (hr : (loopMachine K).Reaches p is p') :
    p'.table.strays = [] ↔ p.table.strays = [] ∧ (loopMachine K).Steps
      (fun q i => q.phase = .looping → ¬i.Recloses K q) p is := by
  induction is generalizing p with
  | nil =>
      rw [reaches_nil_iff] at hr
      rw [hr]
      exact ⟨fun h => ⟨h, trivial⟩, fun h => h.1⟩
  | cons i is ih =>
      rcases reaches_cons_iff.mp hr with ⟨m, hm, hrest⟩
      -- The first step, and the rest of the run from where it leads.
      have hsteps : (loopMachine K).Steps (fun q i => q.phase = .looping → ¬i.Recloses K q) p
            (i :: is) ↔ (p.phase = .looping → ¬i.Recloses K p) ∧
              (loopMachine K).Steps (fun q i => q.phase = .looping → ¬i.Recloses K q) m is := by
        refine ⟨fun h => ⟨h.1, h.2 m hm⟩, fun h => ⟨h.1, fun m' hm' => ?_⟩⟩
        rw [hm] at hm'
        rw [← Option.some.inj hm']
        exact h.2
      rw [hsteps]
      by_cases hp : p.phase = .looping
      · cases i with
        | iterate o =>
            -- The iteration comes back settled, unless the process is gone.
            have hstep : m = p.iterate K o := step_looping hp hm
            rw [hstep] at hrest
            rw [ih (fun hphase => settled_iterate hp (hs hp) hphase) hrest, strays_iterate hp,
              hstep]
            simp only [hp, forall_const, and_assoc]
        | leave =>
            -- Nothing runs after the closes that follow the loop.
            have hstep : m = p.leave := step_looping hp hm
            rw [hstep] at hrest
            rw [run_stopped (show Phase.left ≠ .looping by decide) hrest]
            exact iff_of_false (strays_leave (hs hp)) (fun h => h.2.1 hp trivial)
      · have hstep : m = p := by
          have h1 : (loopMachine K).Reaches p [i] m := reaches_cons_iff.mpr
            ⟨m, hm, reaches_nil_iff.mpr rfl⟩
          exact run_stopped hp h1
        rw [hstep] at hrest ⊢
        rw [ih hs hrest]
        simp only [hp, false_implies, true_and]

/-- Every close of a run is applied to a descriptor that the program has
    opened and not closed since, exactly if the run gets neither to the close
    after `gatt_service` nor to those after the loop. -/
theorem strays_iff (K : Allocator) (inherited : Finset ℕ) (is : List LoopEvent) (p : Proc)
    (hr : (loopMachine K).Reaches (Proc.start inherited) is p) :
    p.table.strays = [] ↔ (loopMachine K).Steps
      (fun q i => q.phase = .looping → ¬i.Recloses K q) (Proc.start inherited) is := by
  rw [strays_reaches (fun _ => settled_start inherited) hr]
  exact ⟨fun h => h.2, fun h => ⟨rfl, h⟩⟩

/-- The first event of a run that comes back to the loop head is an iteration
    that comes back to it. -/
theorem reaches_looping {i : LoopEvent} {is : List LoopEvent} {p' : Proc}
    (hp : p.phase = .looping) (hp' : p'.phase = .looping)
    (hr : (loopMachine K).Reaches p (i :: is) p') :
    ∃ o, i = .iterate o ∧ (p.iterate K o).phase = .looping ∧
      (loopMachine K).Reaches (p.iterate K o) is p' := by
  rcases reaches_cons_iff.mp hr with ⟨m, hm, hrest⟩
  have hstep := step_looping hp hm
  rw [hstep] at hrest
  have hphase : (p.next K i).phase = .looping := by
    by_contra hne
    rw [run_stopped hne hrest] at hp'
    exact hne hp'
  cases i with
  | iterate o => exact ⟨o, rfl, hphase, hrest⟩
  | leave => exact absurd hphase (show Phase.left ≠ .looping by decide)

/-- At the loop head nothing is open, and nothing is referenced. -/
structure Proc.Clean (p : Proc) : Prop where
  held : p.table.held = ∅
  refs : ∀ r ∈ p.refs, r = ⟨0, 0, 0⟩

/-- An iteration that comes back leaves nothing behind exactly if it does not
    get an epoll descriptor for a connection. -/
theorem clean_iterate (hp : p.phase = .looping) (hphase : (p.iterate K o).phase = .looping) :
    (p.iterate K o).Clean ↔ p.Clean ∧ ¬(o.accepts = true ∧ o.gatt.epollCreate = true) := by
  by_cases haccepts : o.accepts = true
  · by_cases hret : o.gatt.returns (p.acceptedFd K) = true
    · rcases iterate_returns haccepts hret hp with ⟨_, _, _, _, hheld, _, hbalanced, hleft⟩
      cases hepoll : o.gatt.epollCreate with
      | false =>
          rcases hbalanced hepoll with ⟨heq, hrefs⟩
          constructor
          · intro h
            refine ⟨⟨heq ▸ h.held, fun r hr => h.refs r ?_⟩, fun hc => Bool.false_ne_true hc.2⟩
            rw [hrefs]
            exact List.mem_append_left _ hr
          · intro h
            refine ⟨heq.trans h.1.held, fun r hr => ?_⟩
            rw [hrefs] at hr
            rcases List.mem_append.mp hr with hr | hr
            · exact h.1.refs r hr
            · exact List.mem_singleton.mp hr
      | true =>
          -- Either a reference is left, or an open descriptor.
          rcases hleft hepoll with ⟨r, hrefs, hr⟩
          refine iff_of_false (fun h => ?_) (fun h => h.2 ⟨haccepts, rfl⟩)
          rcases hr with hr | ⟨e, he, _⟩
          · have hzero := h.refs r (by rw [hrefs]; exact List.mem_append_right _ List.mem_cons_self)
            rw [hzero] at hr
            exact hr rfl
          · rw [h.held] at he
            exact Finset.notMem_empty e he
    · rw [Bool.not_eq_true] at hret
      exact absurd (hphase.symm.trans (iterate_gone haccepts hret).1) (by decide)
  · have hidle := iterate_idle (K := K) (p := p) (Bool.not_eq_true _ ▸ haccepts)
    constructor
    · exact fun h => ⟨⟨hidle.1 ▸ h.held, hidle.2.1 ▸ h.refs⟩, fun hc => haccepts hc.1⟩
    · exact fun h => ⟨hidle.1.symm ▸ h.1.held, hidle.2.1.symm ▸ h.1.refs⟩

/-- A run that comes back to the loop head leaves nothing behind exactly if
    none of its iterations gets an epoll descriptor for a connection. -/
theorem clean_reaches {is : List LoopEvent} {p' : Proc} (hp : p.phase = .looping)
    (hp' : p'.phase = .looping) (hr : (loopMachine K).Reaches p is p') :
    p'.Clean ↔ p.Clean ∧
      ∀ o, .iterate o ∈ is → ¬(o.accepts = true ∧ o.gatt.epollCreate = true) := by
  induction is generalizing p with
  | nil =>
      rw [reaches_nil_iff] at hr
      rw [hr]
      exact ⟨fun h => ⟨h, fun o ho => absurd ho List.not_mem_nil⟩, fun h => h.1⟩
  | cons i is ih =>
      rcases reaches_looping hp hp' hr with ⟨o, rfl, hphase, hrest⟩
      rw [ih hphase hrest, clean_iterate hp hphase, and_assoc]
      simp only [List.mem_cons, LoopEvent.iterate.injEq, forall_eq_or_imp]

/-- An iteration does not add to the inherited descriptors. -/
theorem inherited_iterate (hp : p.phase = .looping) (hphase : (p.iterate K o).phase = .looping) :
    (p.iterate K o).table.inherited ⊆ p.table.inherited := by
  by_cases haccepts : o.accepts = true
  · by_cases hret : o.gatt.returns (p.acceptedFd K) = true
    · exact (iterate_returns haccepts hret hp).2.2.2.2.2.1
    · rw [Bool.not_eq_true] at hret
      exact absurd (hphase.symm.trans (iterate_gone haccepts hret).1) (by decide)
  · rw [(iterate_idle (Bool.not_eq_true _ ▸ haccepts)).1]

theorem inherited_reaches {is : List LoopEvent} {p' : Proc} (hp : p.phase = .looping)
    (hp' : p'.phase = .looping) (hr : (loopMachine K).Reaches p is p') :
    p'.table.inherited ⊆ p.table.inherited := by
  induction is generalizing p with
  | nil =>
      rw [reaches_nil_iff] at hr
      rw [hr]
  | cons i is ih =>
      rcases reaches_looping hp hp' hr with ⟨o, rfl, hphase, hrest⟩
      exact (ih hphase hrest).trans (inherited_iterate hp hphase)

/-- An accepted descriptor is bounded by the number of open ones. -/
theorem acceptedFd_le (hK : K.Lowest) (p : Proc) :
    p.acceptedFd K ≤ p.table.held.card + p.table.inherited.card + 2 := by
  have hfd := Table.openNew_le_card hK ((p.table.openNew K).2.openNew K).2
  simp only [Table.held_openNew, Table.inherited_openNew] at hfd
  have hdd := Finset.card_insert_le (p.table.openNew K).1 p.table.held
  have hsk := Finset.card_insert_le ((p.table.openNew K).2.openNew K).1
    (insert (p.table.openNew K).1 p.table.held)
  unfold Proc.acceptedFd
  omega

/-- A run that comes back to the loop head has closed everything it has opened
    and dropped every reference it has taken, so that the next connection's
    descriptor is bounded, exactly if none of its iterations gets an epoll
    descriptor for a connection. -/
theorem clean_iff (K : Allocator) (inherited : Finset ℕ) (is : List LoopEvent) (p : Proc)
    (hr : (loopMachine K).Reaches (Proc.start inherited) is p) (hp : p.phase = .looping) :
    (p.Clean ∧ (K.Lowest → p.acceptedFd K ≤ inherited.card + 2)) ↔
      ∀ o, .iterate o ∈ is → ¬(o.accepts = true ∧ o.gatt.epollCreate = true) := by
  have hstart : (Proc.start inherited).Clean := ⟨rfl, fun r hr => absurd hr List.not_mem_nil⟩
  have hclean := clean_reaches rfl hp hr
  constructor
  · exact fun h => (hclean.mp h.1).2
  · intro h
    have hpclean := hclean.mpr ⟨hstart, h⟩
    refine ⟨hpclean, fun hK => (acceptedFd_le hK p).trans ?_⟩
    have hcard := Finset.card_le_card (inherited_reaches rfl hp hr)
    rw [hpclean.held, Finset.card_empty]
    simp only [Proc.start] at hcard
    omega

/-- The outcome of an iteration in which everything succeeds and the client
    disconnects in the end. -/
def Iteration.session : Iteration :=
  ⟨true, true, true, ⟨true, true, true, true, true, true⟩,
    ⟨true, ⟨⟨true, ⟨true, true, true, true, true⟩, true, true, true, true⟩, true⟩, true⟩⟩

/-- The outcome of an iteration in which nobody connects. -/
def Iteration.timeout : Iteration :=
  { Iteration.session with accept := ⟨true, true, true, true, false, false⟩ }

/-- One session leaves the three crypto descriptors open and its transport
    referenced. -/
theorem session_leaks :
    ((loopMachine Allocator.lowest).run (Proc.start {0, 1, 2}) [.iterate .session]).2.map
        (fun p => (p.phase, p.table.held, p.refs))
      = some (.looping, {6, 7, 8}, [⟨1, 0, 0⟩]) := by
  decide

theorem clean_iff_timeout :
    ((Proc.start {0, 1, 2}).iterate Allocator.lowest .timeout).Clean ∧
      ((Proc.start {0, 1, 2}).iterate Allocator.lowest .timeout).acceptedFd Allocator.lowest
        ≤ ({0, 1, 2} : Finset ℕ).card + 2 := by
  have hclean := (clean_iff Allocator.lowest {0, 1, 2} [.iterate .timeout] _ rfl (by decide)).mpr
  refine (hclean fun o ho => ?_).imp_right fun hbound => hbound lowest_lowest
  rw [List.mem_singleton, LoopEvent.iterate.injEq] at ho
  rw [ho]
  decide

/-- One session closes its descriptor twice. -/
theorem session_recloses :
    ((loopMachine Allocator.lowest).run (Proc.start {0, 1, 2}) [.iterate .session]).2.map
        (fun p => p.table.strays)
      = some [some 5] := by
  decide

theorem strays_iff_timeout :
    ((Proc.start {0, 1, 2}).iterate Allocator.lowest .timeout).table.strays = [] := by
  refine (strays_iff Allocator.lowest {0, 1, 2} [.iterate .timeout] _ rfl).mpr ?_
  exact ⟨fun _ hc => absurd hc.1 (by decide), fun _ _ => trivial⟩

end Wallclock
