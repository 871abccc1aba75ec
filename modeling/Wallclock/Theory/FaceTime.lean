import Wallclock.Theory.Protocol

/-!
# The Commanded Face Time

What the server does with the face time it is given at start-up.

The face time is handed out on request and given up at the first status, which
the server takes for the acknowledgement. The handler does not check that there
was anything to acknowledge: `commandMachine_step_cases` shows that a status
clears the face time in every state. A status that arrives before the first
face time request therefore loses it.

`FaceTimeKept` is the intended law for a list of inputs, and
`faceTimeKept_iff` says that the law holds exactly for the lists in which a
face time request comes before every status. The runs in question never ask
before the first request, so nothing can have been announced
(`not_announced`), and they cannot stop either (`reaches_of_not_asked`).

## Main definitions

* `Announced`: A notification has carried the face time.
* `AskedFirst`: A face time request comes before every status.
* `FaceTimeKept`: The face time is kept until it has been announced.

## Theorems

* `commandMachine_step_cases`: What one command does to the face time.
* `reaches_of_not_asked`: Without face time requests the process goes on.
* `not_announced`: Without face time requests nothing is announced.
* `gFaceTime_reaches`: Without statuses the face time stays.
* `status_of_reset`: Only a status resets the face time.
* `AskedFirst.no_status`: Nothing asked means nothing reported.
* `AskedFirst.of_append`: The order holds of every first part.
* `announced_of_asked`: The first request announces the face time.
* `faceTimeKept_iff`: The runs in which the face time is kept.
* `status_first_loses_face_time`: A run in which it is lost.
* `faceTimeKept_request_then_status`: A run in which it is kept.
-/

namespace Wallclock

open ByteCodec StepMachine

/-- Some notification has carried the face time `T`. -/
def Announced (T : BitVec 64) (sent : List Notification) : Prop :=
  ∃ n ∈ sent, n.value = 0x01 :: leBytes 8 T.toNat

/-- Before every status there is a face time request. -/
def AskedFirst (is : List ClientWrite) : Prop :=
  ∀ before i after, is = before ++ i :: after → commandByte i.payload = 3 →
    ∃ j ∈ before, commandByte j.payload = 1

/-- The law of the face time: only a status resets it, and only after it has
    been announced; until then it is kept and handed out. -/
structure FaceTimeKept (T : BitVec 64) (is : List ClientWrite) : Prop where
  reset : ∀ before i after g g', is = before ++ i :: after →
    commandMachine.Reaches (Globals.init T) before g → (commandMachine.step g i).2 = some g' →
    g.gFaceTime ≠ 0 → g'.gFaceTime = 0 →
    commandByte i.payload = 3 ∧ Announced T (commandMachine.run (Globals.init T) before).1
  kept : ∀ before after g, is = before ++ after →
    commandMachine.Reaches (Globals.init T) before g →
    ¬Announced T (commandMachine.run (Globals.init T) before).1 → g.gFaceTime = T
  answered : ∀ before i after g, is = before ++ i :: after →
    commandMachine.Reaches (Globals.init T) before g →
    ¬Announced T (commandMachine.run (Globals.init T) before).1 → commandByte i.payload = 1 →
    commandMachine.step g i
      = ([⟨i.server.clockReadDataHandle, 0x01 :: leBytes 8 T.toNat⟩],
        some { g with lastActivity := i.clock.time })

/-- What one command does, as far as the face time is concerned. -/
theorem commandMachine_step_cases (g : Globals) (i : ClientWrite) :
    (commandByte i.payload = 1 ∧ g.gFaceTime ≠ 0 ∧ commandMachine.step g i
        = ([⟨i.server.clockReadDataHandle, 0x01 :: leBytes 8 g.gFaceTime.toNat⟩],
          some { g with lastActivity := i.clock.time })) ∨
      (commandByte i.payload = 1 ∧ g.gFaceTime = 0 ∧ commandMachine.step g i = ([], none)) ∨
      (commandByte i.payload = 3 ∧ ∃ g', g'.gFaceTime = 0 ∧ commandMachine.step g i
        = ([⟨i.server.clockReadDataHandle, [0x03]⟩], some g')) ∨
      (commandByte i.payload ≠ 1 ∧ commandByte i.payload ≠ 3 ∧
        (commandMachine.step g i).2 = some g ∧
        ∀ n ∈ (commandMachine.step g i).1, n.value.head? = some 0x02) := by
  have hlen := i.accepted.1
  rw [commandMachine_step]
  -- One case for each command byte, and two for the face time.
  by_cases h1 : commandByte i.payload = 1
  · by_cases hset : g.gFaceTime = 0
    · rw [clockCommand_req_face_time_unset hlen h1 hset]
      exact Or.inr (Or.inl ⟨h1, hset, rfl⟩)
    · rw [clockCommand_req_face_time hlen h1 hset]
      exact Or.inl ⟨h1, hset, rfl⟩
  · by_cases h3 : commandByte i.payload = 3
    · rw [clockCommand_accept_status hlen h3]
      exact Or.inr (Or.inr (Or.inl ⟨h3, _, rfl, rfl⟩))
    · refine Or.inr (Or.inr (Or.inr ⟨h1, h3, ?_⟩))
      by_cases h2 : commandByte i.payload = 2
      · rw [clockCommand_req_time hlen h2]
        refine ⟨rfl, ?_⟩
        intro n hn
        rw [List.map_cons, List.map_nil, List.mem_singleton] at hn
        rw [hn]
        rfl
      · rw [clockCommand_other hlen h1 h2 h3]
        exact ⟨rfl, fun n hn => absurd hn List.not_mem_nil⟩

variable {is : List ClientWrite} {g g' : Globals} {T : BitVec 64}

theorem reaches_of_not_asked (g : Globals) (h : ∀ i ∈ is, commandByte i.payload ≠ 1) :
    ∃ g', commandMachine.Reaches g is g' := by
  cases hrun : (commandMachine.run g is).2 with
  | some g' => exact ⟨g', hrun⟩
  | none =>
      exfalso
      rcases run_stops_iff.mp hrun with ⟨before, i, after, m, rfl, _, hstop⟩
      have hi : commandByte i.payload ≠ 1 :=
        h i (List.mem_append_right _ List.mem_cons_self)
      rcases commandMachine_step_cases m i with
        ⟨h1, _⟩ | ⟨h1, _⟩ | ⟨_, g', _, hstep⟩ | ⟨_, _, hgo, _⟩
      · exact hi h1
      · exact hi h1
      · rw [hstep] at hstop
        exact absurd hstop (by simp only [reduceCtorEq, not_false_eq_true])
      · rw [hgo] at hstop
        exact absurd hstop (by simp only [reduceCtorEq, not_false_eq_true])

theorem not_announced (g : Globals) (h : ∀ i ∈ is, commandByte i.payload ≠ 1) :
    ¬Announced T (commandMachine.run g is).1 := by
  -- Only the answer to a face time request starts with its command byte.
  induction is generalizing g with
  | nil => exact fun ⟨n, hn, _⟩ => absurd hn List.not_mem_nil
  | cons i is ih =>
      have hi : commandByte i.payload ≠ 1 := h i List.mem_cons_self
      have hrest : ∀ j ∈ is, commandByte j.payload ≠ 1 := fun j hj =>
        h j (List.mem_cons_of_mem _ hj)
      rintro ⟨n, hn, hval⟩
      rcases commandMachine_step_cases g i with
        ⟨h1, _⟩ | ⟨h1, _⟩ | ⟨_, g', _, hstep⟩ | ⟨_, _, hgo, hout⟩
      · exact hi h1
      · exact hi h1
      · -- The acknowledgement of a status is a single byte.
        rw [run_cons_go is hstep] at hn
        rcases List.mem_append.mp hn with hn | hn
        · rw [List.mem_singleton] at hn
          rw [hn, List.cons.injEq] at hval
          exact absurd hval.1 (by decide)
        · exact ih g' hrest ⟨n, hn, hval⟩
      · rcases hstep : commandMachine.step g i with ⟨out, next⟩
        rw [hstep] at hgo hout
        simp only at hgo hout
        rw [run_cons_go is (by rw [hstep, hgo])] at hn
        rcases List.mem_append.mp hn with hn | hn
        · have hhead := hout n hn
          rw [hval, List.head?_cons] at hhead
          exact absurd hhead (by decide)
        · exact ih g hrest ⟨n, hn, hval⟩

/-- Without a status the face time stays what it is. -/
theorem gFaceTime_reaches (h : ∀ i ∈ is, commandByte i.payload ≠ 3)
    (hr : commandMachine.Reaches g is g') : g'.gFaceTime = g.gFaceTime := by
  refine reaches_invariant_of (fun m => m.gFaceTime = g.gFaceTime)
    (fun i => commandByte i.payload ≠ 3) ?_ h rfl hr
  intro m i m' hm hi hnext
  rcases commandMachine_step_cases m i with
    ⟨_, _, hstep⟩ | ⟨_, _, hstep⟩ | ⟨h3, _⟩ | ⟨_, _, hgo, _⟩
  · rw [hstep, Option.some.injEq] at hnext
    rw [← hnext]
    exact hm
  · rw [hstep] at hnext
    exact absurd hnext (by simp only [reduceCtorEq, not_false_eq_true])
  · exact absurd h3 hi
  · rw [hgo, Option.some.injEq] at hnext
    rw [← hnext]
    exact hm

/-- A list in which no request is made has no status either, if every status
    has a request before it. -/
theorem AskedFirst.no_status (h : AskedFirst is) (hask : ∀ i ∈ is, commandByte i.payload ≠ 1) :
    ∀ i ∈ is, commandByte i.payload ≠ 3 := by
  intro i hi h3
  rcases List.append_of_mem hi with ⟨before, after, heq⟩
  rcases h before i after heq h3 with ⟨j, hj, h1⟩
  exact hask j (by rw [heq]; exact List.mem_append_left _ hj) h1

theorem AskedFirst.of_append {before after : List ClientWrite} (h : AskedFirst (before ++ after)) :
    AskedFirst before := by
  intro b i a heq
  exact h b i (a ++ after) (by rw [heq, List.append_assoc, List.cons_append])

/-- A command that resets a face time is a status. -/
theorem status_of_reset {i : ClientWrite} (hnext : (commandMachine.step g i).2 = some g')
    (hne : g.gFaceTime ≠ 0) (h0 : g'.gFaceTime = 0) : commandByte i.payload = 3 := by
  rcases commandMachine_step_cases g i with
    ⟨_, _, hstep⟩ | ⟨_, _, hstep⟩ | ⟨h3, _⟩ | ⟨_, _, hgo, _⟩
  · rw [hstep, Option.some.injEq] at hnext
    rw [← hnext] at h0
    exact absurd h0 hne
  · rw [hstep] at hnext
    exact absurd hnext.symm (Option.some_ne_none g')
  · exact h3
  · rw [hgo, Option.some.injEq] at hnext
    rw [← hnext] at h0
    exact absurd h0 hne

/-- Once a request has been made in order, the face time has been announced:
    the first request found it untouched. -/
theorem announced_of_asked (hT : T ≠ 0) (h : AskedFirst is)
    (hask : ∃ i ∈ is, commandByte i.payload = 1) :
    Announced T (commandMachine.run (Globals.init T) is).1 := by
  -- Split the list at its first request.
  obtain ⟨i, hfind⟩ : ∃ i, is.find? (fun i => commandByte i.payload == 1) = some i := by
    rcases hask with ⟨i, hi, h1⟩
    exact Option.isSome_iff_exists.mp (List.find?_isSome.mpr ⟨i, hi, beq_iff_eq.mpr h1⟩)
  rcases List.find?_eq_some_iff_append.mp hfind with ⟨h1, before, after, rfl, hfirst⟩
  have hbefore : ∀ j ∈ before, commandByte j.payload ≠ 1 := by
    intro j hj h1
    have := hfirst j hj
    rw [h1] at this
    exact absurd this (by decide)
  rcases reaches_of_not_asked (Globals.init T) hbefore with ⟨g, hg⟩
  have hface : g.gFaceTime = T :=
    gFaceTime_reaches (h.of_append.no_status hbefore) hg
  -- The request is answered with the face time.
  rcases commandMachine_step_cases g i with
    ⟨_, _, hstep⟩ | ⟨_, h0, _⟩ | ⟨h3, _⟩ | ⟨hne, _⟩
  · rw [run_append_go _ hg, run_cons_go after hstep]
    refine ⟨⟨i.server.clockReadDataHandle, 0x01 :: leBytes 8 g.gFaceTime.toNat⟩, ?_, ?_⟩
    · exact List.mem_append_right _ (List.mem_append_left _ List.mem_cons_self)
    · rw [hface]
  · exact absurd (hface.symm.trans h0) hT
  · rw [beq_iff_eq.mp h1] at h3
    exact absurd h3 (by decide)
  · exact absurd (beq_iff_eq.mp h1) hne

/-- The face time is kept exactly in the runs in which every status comes
    after a face time request. -/
theorem faceTimeKept_iff (T : BitVec 64) (hT : T ≠ 0) (is : List ClientWrite) :
    FaceTimeKept T is ↔ AskedFirst is := by
  constructor
  · intro hkept before i after heq h3
    by_contra hask
    push Not at hask
    -- Nothing was asked, so the status finds the face time and clears it.
    rcases reaches_of_not_asked (Globals.init T) hask with ⟨g, hg⟩
    have hquiet : ¬Announced T (commandMachine.run (Globals.init T) before).1 :=
      not_announced (Globals.init T) hask
    have hface : g.gFaceTime = T := hkept.kept before (i :: after) g heq hg hquiet
    rcases commandMachine_step_cases g i with
      ⟨h1, _⟩ | ⟨h1, _⟩ | ⟨_, g', h0, hstep⟩ | ⟨_, hne, _⟩
    · exact absurd (h1.symm.trans h3) (by decide)
    · exact absurd (h1.symm.trans h3) (by decide)
    · exact hquiet (hkept.reset before i after g g' heq hg (by rw [hstep])
        (by rw [hface]; exact hT) h0).2
    · exact hne h3
  · intro horder
    have hkept : ∀ before after g, is = before ++ after →
        commandMachine.Reaches (Globals.init T) before g →
        ¬Announced T (commandMachine.run (Globals.init T) before).1 → g.gFaceTime = T := by
      intro before after g heq hg hquiet
      have hbefore : AskedFirst before := AskedFirst.of_append (heq ▸ horder)
      -- Not announced means not asked for, and so not reset either.
      refine gFaceTime_reaches (hbefore.no_status ?_) hg
      intro i hi h1
      exact hquiet (announced_of_asked hT hbefore ⟨i, hi, h1⟩)
    refine ⟨?_, hkept, ?_⟩
    · intro before i after g g' heq hg hstep hne h0
      have h3 := status_of_reset hstep hne h0
      exact ⟨h3, announced_of_asked hT (AskedFirst.of_append (heq ▸ horder))
        (horder before i after heq h3)⟩
    · intro before i after g heq hg hquiet h1
      have hface : g.gFaceTime = T := hkept before (i :: after) g heq hg hquiet
      rcases commandMachine_step_cases g i with
        ⟨_, _, hs⟩ | ⟨_, h0, _⟩ | ⟨h3, _⟩ | ⟨hne, _⟩
      · rw [hs, hface]
      · exact absurd (hface.symm.trans h0) hT
      · exact absurd (h1.symm.trans h3) (by decide)
      · exact absurd h1 hne

/-- A status before the first request clears a face time nobody has seen, and
    the request that follows ends the process. -/
theorem status_first_loses_face_time :
    ¬FaceTimeKept 5
        [.sample (Status.encode ⟨0, 0, 0, 0, 0⟩) (by decide), .sample [0x01] (by decide)] ∧
      commandMachine.run (Globals.init 5)
          [.sample (Status.encode ⟨0, 0, 0, 0, 0⟩) (by decide), .sample [0x01] (by decide)]
        = ([⟨14, [0x03]⟩], none) := by
  refine ⟨?_, by decide⟩
  intro hkept
  -- The only notification so far is the acknowledgement of the status.
  have hquiet : ¬Announced 5 (commandMachine.run (Globals.init 5)
      [.sample (Status.encode ⟨0, 0, 0, 0, 0⟩) (by decide)]).1 := by
    unfold Announced
    decide
  have hreach : commandMachine.Reaches (Globals.init 5)
      [.sample (Status.encode ⟨0, 0, 0, 0, 0⟩) (by decide)]
      ((Globals.init 5).record ⟨0, 0, 0, 0, 0⟩ 0) := by
    unfold Reaches
    decide
  exact absurd (hkept.kept _ _ _ rfl hreach hquiet) (by decide)

theorem faceTimeKept_request_then_status :
    FaceTimeKept 5
      [.sample [0x01] (by decide), .sample (Status.encode ⟨0, 0, 0, 0, 0⟩) (by decide)] := by
  refine (faceTimeKept_iff 5 (by decide) _).mpr ?_
  intro before i after heq h3
  cases before with
  | nil =>
      rw [List.nil_append, List.cons.injEq] at heq
      rw [← heq.1] at h3
      exact absurd h3 (by decide)
  | cons j before =>
      rw [List.cons_append, List.cons.injEq] at heq
      exact ⟨j, List.mem_cons_self, by rw [← heq.1]; decide⟩

end Wallclock
