/-
The phases of a worker.

Of the calls that are under way one at most has changed the status and not returned. How far
it has got says what the status, the queue and the handle of the thread are: that is its
phase. Three things happen to a phase: the call gets on to the next one (`leads_step`), the
thread of the worker works (`Works.phase`), and a task is added (`phase_addTaskSection`).
-/
import NetworkApplication.WorkerCalls

set_option autoImplicit false

namespace NetworkApplication.WorkerCalls

/-! ## The phases of a worker -/

section Phases

variable {w w' : WorkerState CallThread} {c : Call} {p : Option Call}

/-- Between the calls: the worker is stopped or flushed and has no thread, or it has one. -/
def Base (w : WorkerState CallThread) : Prop :=
  w.status = .Stop ∧ w.thread = none ∨
  w.status = .Flush ∧ w.thread = none ∧ w.queue.tasks = [] ∨
  (w.status = .Wait ∨ w.status = .Work) ∧ ∃ m, w.thread = some m ∧ w.exited m = false

/-- The queue of a worker that is being flushed is somebody's business. -/
def Draining (w : WorkerState CallThread) : Prop :=
  w.status = .Flush ∧ (w.thread = none → w.queue.tasks = []) ∧
    ∀ m, w.thread = some m → w.exited m = true → w.queue.tasks = []

/-- How far the one call of `start`, `stop` or `flush` has got that is under way. -/
def Phase (w : WorkerState CallThread) : Option Call → Prop
  | none => Base w
  | some c =>
    match c.call, c.position with
    | .start, .called | .stop _, .called => Base w
    | .flush, .called => Base w ∧ (w.status = .Stop → w.queue.tasks = [])
    | .start, .storing => w.status = .Stop ∧ w.thread = none
    | .start, .spawning => w.status = .Wait ∧ w.thread = none
    | .stop _, .joining => w.status = .Stop
    | .stop _, .joins => w.status = .Stop ∧ w.thread ≠ none
    | .flush, .waiting => Draining w
    | .flush, .asleep => Draining w ∧ (w.queue.tasks ≠ [] ∨ w.mutex ≠ none)
    | .flush, .joining => w.status = .Flush ∧ w.queue.tasks = []
    | .flush, .joins => w.status = .Flush ∧ w.queue.tasks = [] ∧ w.thread ≠ none
    | _, _ => False

/-- Thread `m` of the worker has been created and has not ended. -/
def Alive (m : Nat) (w : WorkerState CallThread) : Prop := m < w.spawned ∧ w.exited m = false

/-- The handle is that of the one thread that is alive. -/
structure Sound (w : WorkerState CallThread) : Prop where
  exited : ∀ m, w.exited m = true → m < w.spawned
  live : ∀ m, Alive m w → w.thread = some m
  handle : ∀ m, w.thread = some m → m < w.spawned

/-- What a call does to what the others look at. -/
structure Keeps (w w' : WorkerState CallThread) : Prop where
  mutex : w'.mutex = w.mutex
  exited : w'.exited = w.exited
  spawned : w.spawned ≤ w'.spawned
  stop : w'.status = .Stop → w.status = .Stop ∨ w.mutex = none
  accepted : ∀ x ∈ w.queue.accepted, x ∈ w'.queue.accepted
  executed : w'.queue.executed = w.queue.executed
  kept : ∀ x, x ∈ w'.queue.accepted → x ∈ w.queue.accepted ∨ x ∈ w'.queue.tasks
  queued : ∀ x, x ∈ w.queue.cleared ∨ x ∈ w.queue.tasks →
    x ∈ w'.queue.cleared ∨ x ∈ w'.queue.tasks

theorem Keeps.refl (w : WorkerState CallThread) : Keeps w w :=
  ⟨rfl, rfl, Nat.le_refl _, .inl, fun _ h => h, rfl, fun _ h => .inl h, fun _ h => h⟩

theorem keeps_stopSection (clearQueue : Bool) (hfree : w.mutex = none) :
    Keeps w (stopSection clearQueue w).2 := by
  unfold stopSection
  by_cases hstop : w.status = .Stop
  · rw [if_pos hstop]
    exact Keeps.refl w
  · rw [if_neg hstop]
    refine ⟨rfl, rfl, Nat.le_refl _, fun _ => .inr hfree, ?_, ?_, ?_, ?_⟩
    · cases clearQueue <;> exact fun _ h => h
    · cases clearQueue <;> rfl
    · cases clearQueue <;> exact fun _ h => .inl h
    · intro x hx
      cases clearQueue with
      | false => exact hx
      | true => exact .inl (List.mem_append.mpr hx)

theorem keeps_addTaskSection : Keeps w (addTaskSection w) := by
  unfold addTaskSection
  by_cases hdrop : w.status = .Stop ∨ w.status = .Flush
  · rw [if_pos hdrop]
    exact Keeps.refl w
  · rw [if_neg hdrop]
    refine ⟨rfl, rfl, Nat.le_refl _, .inl, ?_, rfl, ?_, ?_⟩
    · exact fun x hx => List.mem_append_left _ hx
    · intro x hx
      rcases List.mem_append.mp hx with hx | hx
      · exact .inl hx
      · exact .inr (List.mem_append_right _ hx)
    · exact fun x hx => hx.imp_right (List.mem_append_left _)

/-- A call of `addTask` disturbs no other. -/
theorem phase_addTaskSection (h : Phase w p) : Phase (addTaskSection w) p := by
  unfold addTaskSection
  by_cases hdrop : w.status = .Stop ∨ w.status = .Flush
  · rw [if_pos hdrop]
    exact h
  rw [if_neg hdrop]
  obtain ⟨hstop, hflush⟩ := not_or.mp hdrop
  have hbase : Base w → Base { w with queue := w.queue.push } := by
    rintro (h | h | h)
    · exact absurd h.1 hstop
    · exact absurd h.1 hflush
    · exact .inr (.inr h)
  cases p with
  | none => exact hbase h
  | some c =>
    obtain ⟨call, position, accepted⟩ := c
    cases call <;> cases position
    all_goals first
      | exact h.elim
      | exact hbase h
      | exact ⟨hbase h.1, fun h' => absurd h' hstop⟩
      | exact absurd h.1 hstop
      | exact absurd h hstop
      | exact absurd h.1 hflush
      | exact absurd h.1.1 hflush
      | exact h

/-- What the next step of a call leads to. -/
structure Leads (w : WorkerState CallThread) (c : Call) (c' : Option Call)
    (w' : WorkerState CallThread) : Prop where
  phase : Phase w' c'
  sound : Sound w'
  keeps : Keeps w w'
  call : ∀ c₁, c' = some c₁ → c₁.call = c.call ∧ c₁.accepted = c.accepted ∧ c₁.position ≠ .called
  left : w'.status = .Stop → (w.status = .Stop ∨ c.call = .stop false → w.queue.tasks = []) →
    w'.queue.tasks = []
  flushed : c.call = .flush → c' = none → w'.queue.tasks = [] ∧ w'.thread = none

variable {c' : Option Call} {notifies : Bool}

theorem goesOn_call {p : Position} (hp : p ≠ .called) : ∀ c₁, some (c.goesOn p) = some c₁ →
    c₁.call = c.call ∧ c₁.accepted = c.accepted ∧ c₁.position ≠ .called := by
  rintro c₁ hc₁
  cases hc₁
  exact ⟨rfl, rfl, hp⟩

theorem leads_start (hcall : c.call = .start) (h : Phase w (some c)) (hsound : Sound w)
    (hstep : c.step w = some (c', notifies, w')) : Leads w c c' w' := by
  obtain ⟨call, position, accepted⟩ := c
  obtain rfl : call = .start := hcall
  have hflushed : ∀ {Q : Prop}, WorkerCall.start = .flush → Q := fun h => by cases h
  cases position with
  | called =>
    have hbase : Base w := h
    cases hstep
    by_cases hstop : w.status = .Stop
    · rw [if_pos hstop]
      refine ⟨?_, hsound, Keeps.refl w, goesOn_call (by decide), fun h hleft => hleft (.inl h),
        hflushed⟩
      rcases hbase with h | h | h
      · exact h
      · rw [h.1] at hstop
        cases hstop
      · rcases h.1 with h | h <;> · rw [h] at hstop; cases hstop
    · rw [if_neg hstop]
      exact ⟨hbase, hsound, Keeps.refl w, (fun c₁ hc₁ => by cases hc₁),
        fun h hleft => hleft (.inl h), hflushed⟩
  | storing =>
    obtain ⟨hstop, hthread⟩ := h
    cases hstep
    refine ⟨⟨rfl, hthread⟩, ⟨hsound.exited, hsound.live, hsound.handle⟩, ?_,
      goesOn_call (by decide), (fun h => by cases h), hflushed⟩
    exact ⟨rfl, rfl, Nat.le_refl _, (fun h => by cases h), fun _ h => h, rfl, fun _ h => .inl h,
      fun _ h => h⟩
  | spawning =>
    obtain ⟨hwait, hthread⟩ := h
    cases hstep
    -- the new thread is the one that is alive: there was none
    have hnew : w.exited w.spawned = false := by
      rw [Bool.eq_false_iff]
      intro h
      exact Nat.lt_irrefl _ (hsound.exited _ h)
    refine ⟨.inr (.inr ⟨.inl hwait, w.spawned, rfl, hnew⟩), ⟨?_, ?_, ?_⟩, ?_,
      (fun c₁ hc₁ => by cases hc₁), fun h hleft => hleft (.inl h), hflushed⟩
    · exact fun m hm => Nat.lt_succ_of_lt (hsound.exited m hm)
    · rintro m ⟨hm, hexited⟩
      rcases Nat.lt_succ_iff_lt_or_eq.mp hm with hlt | rfl
      · have hold := hsound.live m ⟨hlt, hexited⟩
        rw [hthread] at hold
        cases hold
      · rfl
    · rintro m hm
      cases hm
      exact Nat.lt_succ_self _
    · exact ⟨rfl, rfl, Nat.le_succ _, .inl, fun _ h => h, rfl, fun _ h => .inl h, fun _ h => h⟩
  | waiting | asleep | joining | joins => exact h.elim

/-- The two steps of `joinThread`, behind a `stop` or a `flush`. -/
theorem leads_joining (hbase : w.thread = none → Base w)
    (hflushed : c.call = .flush → w.queue.tasks = [])
    (hjoins : w.thread ≠ none → Phase w (some (c.goesOn .joins))) (hsound : Sound w) :
    Leads w c (if w.thread.isSome then some (c.goesOn .joins) else none) w := by
  cases hthread : w.thread with
  | none =>
    exact ⟨hbase hthread, hsound, Keeps.refl w, (fun c₁ hc₁ => by cases hc₁),
      fun h hleft => hleft (.inl h), fun hcall _ => ⟨hflushed hcall, hthread⟩⟩
  | some m =>
    exact ⟨hjoins (by rw [hthread]; simp), hsound, Keeps.refl w, goesOn_call (by decide),
      fun h hleft => hleft (.inl h), fun _ h => by cases h⟩

theorem leads_joins {m : Nat} (hthread : w.thread = some m) (hexited : w.exited m = true)
    (hbase : Base { w with thread := none }) (hflushed : c.call = .flush → w.queue.tasks = [])
    (hsound : Sound w) : Leads w c none { w with thread := none } := by
  refine ⟨hbase, ⟨hsound.exited, ?_, (fun m' hm' => by cases hm')⟩, ?_, (fun c₁ hc₁ => by cases hc₁),
    fun h hleft => hleft (.inl h), fun hcall _ => ⟨hflushed hcall, rfl⟩⟩
  · intro m' hm'
    have hsame := hsound.live m' hm'
    rw [hthread] at hsame
    cases hsame
    rw [hm'.2] at hexited
    cases hexited
  · exact ⟨rfl, rfl, Nat.le_refl _, .inl, fun _ h => h, rfl, fun _ h => .inl h, fun _ h => h⟩

theorem leads_stop {clearQueue : Bool} (hcall : c.call = .stop clearQueue) (h : Phase w (some c))
    (hsound : Sound w) (hstep : c.step w = some (c', notifies, w')) : Leads w c c' w' := by
  obtain ⟨call, position, accepted⟩ := c
  obtain rfl : call = .stop clearQueue := hcall
  have hflushed : ∀ {Q : Prop}, WorkerCall.stop clearQueue = .flush → Q := fun h => by cases h
  cases position with
  | called =>
    have hbase : Base w := h
    simp only [Call.step, Option.ite_none_right_eq_some, Option.some.injEq, Prod.mk.injEq] at hstep
    obtain ⟨hfree, rfl, rfl, rfl⟩ := hstep
    have hkeeps := keeps_stopSection clearQueue hfree
    by_cases hstop : w.status = .Stop
    · simp only [stopSection, if_pos hstop, Bool.false_eq_true, if_false]
      exact ⟨hbase, hsound, Keeps.refl w, (fun c₁ hc₁ => by cases hc₁),
        fun h hleft => hleft (.inl h), hflushed⟩
    · simp only [stopSection, if_neg hstop, if_true] at hkeeps ⊢
      refine ⟨rfl, ⟨hsound.exited, hsound.live, hsound.handle⟩, hkeeps, goesOn_call (by decide), ?_,
        hflushed⟩
      -- `stop(true)` leaves nothing, `stop(false)` what was there
      intro _ hleft
      cases clearQueue with
      | false => exact hleft (.inr rfl)
      | true => rfl
  | joining =>
    have hstop : w.status = .Stop := h
    cases hstep
    exact leads_joining (fun hthread => .inl ⟨hstop, hthread⟩) hflushed
      (fun hthread => ⟨hstop, hthread⟩) hsound
  | joins =>
    obtain ⟨hstop, -⟩ := h
    simp only [Call.step] at hstep
    cases hthread : w.thread with
    | none =>
      rw [hthread] at hstep
      cases hstep
    | some m =>
      simp only [hthread, Option.ite_none_right_eq_some, Option.some.injEq, Prod.mk.injEq] at hstep
      obtain ⟨hexited, rfl, rfl, rfl⟩ := hstep
      exact leads_joins hthread hexited (.inl ⟨hstop, rfl⟩) hflushed hsound
  | storing | spawning | waiting | asleep => exact h.elim

/-- A `flush` that sets the status finds a worker that is stopped and has nothing to do, or one
that has a thread. -/
theorem draining_of_base (h : Base w) (hflush : w.status ≠ .Flush)
    (hstop : w.status = .Stop → w.queue.tasks = []) : Draining { w with status := .Flush } := by
  rcases h with ⟨hstatus, hthread⟩ | ⟨hstatus, -⟩ | ⟨-, m, hthread, hexited⟩
  · exact ⟨rfl, fun _ => hstop hstatus, fun _ _ _ => hstop hstatus⟩
  · exact absurd hstatus hflush
  · refine ⟨rfl, fun hnone => ?_, fun m' hm' hexited' => ?_⟩
    · rw [show w.thread = none from hnone] at hthread
      cases hthread
    · rw [show w.thread = some m' from hm'] at hthread
      cases hthread
      rw [show w.exited m = true from hexited'] at hexited
      cases hexited

theorem leads_flush (hcall : c.call = .flush) (h : Phase w (some c)) (hsound : Sound w)
    (hstep : c.step w = some (c', notifies, w')) : Leads w c c' w' := by
  obtain ⟨call, position, accepted⟩ := c
  obtain rfl : call = .flush := hcall
  cases position with
  | called =>
    obtain ⟨hbase, hleft⟩ := h
    simp only [Call.step, Option.ite_none_right_eq_some, Option.some.injEq, Prod.mk.injEq] at hstep
    obtain ⟨hfree, rfl, rfl, rfl⟩ := hstep
    by_cases hflush : w.status = .Flush
    · simp only [flushSection, if_pos hflush, Bool.false_eq_true, if_false]
      refine ⟨hbase, hsound, Keeps.refl w, (fun c₁ hc₁ => by cases hc₁),
        fun h hleft => hleft (.inl h), fun _ _ => ?_⟩
      rcases hbase with h | h | h
      · rw [h.1] at hflush
        cases hflush
      · exact ⟨h.2.2, h.2.1⟩
      · rcases h.1 with h | h <;> · rw [h] at hflush; cases hflush
    · simp only [flushSection, if_neg hflush, if_true]
      refine ⟨draining_of_base hbase hflush hleft, ⟨hsound.exited, hsound.live, hsound.handle⟩, ?_,
        goesOn_call (by decide), (fun h => by cases h), fun _ h => by cases h⟩
      exact ⟨rfl, rfl, Nat.le_refl _, (fun h => by cases h), fun _ h => h, rfl, fun _ h => .inl h,
        fun _ h => h⟩
  | waiting =>
    have hdraining : Draining w := h
    simp only [Call.step, Option.ite_none_right_eq_some, Option.some.injEq, Prod.mk.injEq] at hstep
    obtain ⟨-, rfl, rfl, rfl⟩ := hstep
    refine ⟨?_, hsound, Keeps.refl w, goesOn_call (by split <;> decide),
      fun h hleft => hleft (.inl h), fun _ h => by cases h⟩
    -- the wait is for the queue alone: a task may still be executed when it is over
    by_cases hempty : w.queue.tasks = []
    · rw [if_pos hempty]
      exact ⟨hdraining.1, hempty⟩
    · rw [if_neg hempty]
      exact ⟨hdraining, .inl hempty⟩
  | asleep => cases hstep
  | joining =>
    obtain ⟨hflush, hempty⟩ := h
    cases hstep
    exact leads_joining (fun hthread => .inr (.inl ⟨hflush, hthread, hempty⟩)) (fun _ => hempty)
      (fun hthread => ⟨hflush, hempty, hthread⟩) hsound
  | joins =>
    obtain ⟨hflush, hempty, -⟩ := h
    simp only [Call.step] at hstep
    cases hthread : w.thread with
    | none =>
      rw [hthread] at hstep
      cases hstep
    | some m =>
      simp only [hthread, Option.ite_none_right_eq_some, Option.some.injEq, Prod.mk.injEq] at hstep
      obtain ⟨hexited, rfl, rfl, rfl⟩ := hstep
      exact leads_joins hthread hexited (.inr (.inl ⟨hflush, rfl, hempty⟩)) (fun _ => hempty) hsound
  | storing | spawning => exact h.elim

/-- **What the next step of a call leads to**: the call of `start`, `stop` or `flush` that is
under way gets on by one phase. -/
theorem leads_step (hcall : c.call ≠ .addTask) (h : Phase w (some c)) (hsound : Sound w)
    (hstep : c.step w = some (c', notifies, w')) : Leads w c c' w' := by
  cases hc : c.call with
  | start => exact leads_start hc h hsound hstep
  | stop clearQueue => exact leads_stop hc h hsound hstep
  | flush => exact leads_flush hc h hsound hstep
  | addTask => exact absurd hc hcall

/-- What the thread of the worker does to what the calls look at: it changes the status between
`Wait` and `Work`, takes tasks, and ends when it is stopped or there is nothing left to
flush. -/
structure Works (w w' : WorkerState CallThread) : Prop where
  status : w'.status = w.status ∨ (w.status = .Wait ∨ w.status = .Work) ∧
    (w'.status = .Wait ∨ w'.status = .Work)
  thread : w'.thread = w.thread
  tasks : w.queue.tasks = [] → w'.queue.tasks = []
  exited : ∀ m, w'.exited m = true → w.exited m = true ∨ w.status = .Stop ∨
    w.status = .Flush ∧ w'.queue.tasks = []

theorem Works.status_of (h : Works w w') {s : StatusWorker} (hs : s = .Stop ∨ s = .Flush)
    (hstatus : w.status = s) : w'.status = s := by
  rcases h.status with hsame | ⟨hwork, -⟩
  · rw [hsame, hstatus]
  · rw [hstatus] at hwork
    rcases hs with rfl | rfl <;> rcases hwork with h | h <;> cases h

theorem Works.base (h : Works w w') (hbase : Base w) (hthread : w.thread ≠ none) : Base w' := by
  rcases hbase with ⟨-, hnone⟩ | ⟨-, hnone, -⟩ | ⟨hstatus, m, hm, hexited⟩
  · exact absurd hnone hthread
  · exact absurd hnone hthread
  · refine .inr (.inr ⟨?_, m, h.thread.trans hm, ?_⟩)
    · rcases h.status with hsame | ⟨-, hwork⟩
      · rw [hsame]
        exact hstatus
      · exact hwork
    · rw [Bool.eq_false_iff]
      intro hexited'
      rcases h.exited m hexited' with hbefore | hstop | ⟨hflush, -⟩
      · rw [hbefore] at hexited
        cases hexited
      · rw [hstop] at hstatus
        rcases hstatus with h | h <;> cases h
      · rw [hflush] at hstatus
        rcases hstatus with h | h <;> cases h

theorem Works.draining (h : Works w w') (hdraining : Draining w) (hthread : w.thread ≠ none) :
    Draining w' := by
  refine ⟨h.status_of (.inr rfl) hdraining.1, fun hnone => ?_, fun m hm hexited => ?_⟩
  · rw [h.thread] at hnone
    exact absurd hnone hthread
  · rw [h.thread] at hm
    rcases h.exited m hexited with hbefore | hstop | ⟨-, hempty⟩
    · exact h.tasks (hdraining.2.2 m hm hbefore)
    · rw [hdraining.1] at hstop
      cases hstop
    · exact hempty

/-- While the worker works the call that is under way stays where it is. -/
theorem Works.phase (h : Works w w') (hphase : Phase w p) (hthread : w.thread ≠ none)
    (hasleep : ∀ c, p = some c → c.position = .asleep →
      w'.queue.tasks ≠ [] ∨ w'.mutex ≠ none) : Phase w' p := by
  have hthread' : w'.thread ≠ none := by
    rw [h.thread]
    exact hthread
  cases p with
  | none => exact h.base hphase hthread
  | some c =>
    obtain ⟨call, position, accepted⟩ := c
    cases call with
    | start =>
      cases position with
      | called => exact h.base hphase hthread
      | storing => exact absurd hphase.2 hthread
      | spawning => exact absurd hphase.2 hthread
      | waiting | asleep | joining | joins => exact hphase.elim
    | stop clearQueue =>
      cases position with
      | called => exact h.base hphase hthread
      | joining => exact h.status_of (.inl rfl) hphase
      | joins => exact ⟨h.status_of (.inl rfl) hphase.1, hthread'⟩
      | storing | spawning | waiting | asleep => exact hphase.elim
    | flush =>
      cases position with
      | called =>
        refine ⟨h.base hphase.1 hthread, fun hstop => ?_⟩
        rcases h.status with hsame | ⟨-, hwork⟩
        · exact h.tasks (hphase.2 (hsame.symm.trans hstop))
        · rw [hstop] at hwork
          rcases hwork with h | h <;> cases h
      | waiting => exact h.draining hphase hthread
      | asleep => exact ⟨h.draining hphase.1 hthread, hasleep _ rfl rfl⟩
      | joining => exact ⟨h.status_of (.inr rfl) hphase.1, h.tasks hphase.2⟩
      | joins => exact ⟨h.status_of (.inr rfl) hphase.1, h.tasks hphase.2.1, hthread'⟩
      | storing | spawning => exact hphase.elim
    | addTask => cases position <;> exact hphase.elim

/-- What `wait_for` finds when it has not timed out. -/
theorem nextSection_cases {next : Worker.Next} (h : nextSection w = some (next, w')) :
    (next = .leave ∧ w' = w ∧ (w.status = .Stop ∨ w.status = .Flush ∧ w.queue.tasks = [])) ∨
    (next = .again ∧ w' = w ∧ w.workReady = false) ∨
    ∃ task rest, next = .task task ∧ w.queue.tasks = task :: rest ∧ w.status ≠ .Stop ∧
      w' = { w with
        status := if w.status = .Flush then .Flush else .Work
        queue := { w.queue with tasks := rest, current_task := some task } } := by
  unfold nextSection at h
  by_cases hstop : w.status = .Stop
  · rw [if_pos hstop] at h
    cases h
    exact .inl ⟨rfl, rfl, .inl hstop⟩
  rw [if_neg hstop] at h
  cases hready : w.workReady with
  | false =>
    rw [hready] at h
    cases h
    exact .inr (.inl ⟨rfl, rfl, rfl⟩)
  | true =>
    rw [hready] at h
    by_cases hflushed : w.status = .Flush ∧ w.queue.tasks = []
    · simp only [Bool.not_true, Bool.false_eq_true, if_false, if_pos hflushed] at h
      cases h
      exact .inl ⟨rfl, rfl, .inr hflushed⟩
    · simp only [Bool.not_true, Bool.false_eq_true, if_false, if_neg hflushed] at h
      cases htasks : w.queue.tasks with
      | nil =>
        rw [htasks] at h
        cases h
      | cons task rest =>
        rw [htasks] at h
        cases h
        exact .inr (.inr ⟨task, rest, rfl, rfl, hstop, rfl⟩)

/-- There is a task at the front when one is taken. -/
theorem nextSection_ne_none (w : WorkerState CallThread) : nextSection w ≠ none := by
  intro h
  unfold nextSection at h
  by_cases hstop : w.status = .Stop
  · rw [if_pos hstop] at h
    cases h
  rw [if_neg hstop] at h
  cases hready : w.workReady with
  | false =>
    rw [hready] at h
    cases h
  | true =>
    rw [hready] at h
    by_cases hflushed : w.status = .Flush ∧ w.queue.tasks = []
    · simp only [Bool.not_true, Bool.false_eq_true, if_false, if_pos hflushed] at h
      cases h
    · simp only [Bool.not_true, Bool.false_eq_true, if_false, if_neg hflushed] at h
      cases htasks : w.queue.tasks with
      | nil =>
        have hflush : w.status ≠ .Flush := fun hflush => hflushed ⟨hflush, htasks⟩
        simp [WorkerState.workReady, htasks, hstop, hflush] at hready
      | cons task rest =>
        rw [htasks] at h
        cases h

end Phases

end NetworkApplication.WorkerCalls
