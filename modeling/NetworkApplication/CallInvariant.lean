/-
What is kept in every run of the calls on a worker.

`Inv` puts together the phase, the callers and the threads. It is kept by every step that meets
the condition `Ordered`, as long as the tasks call nothing but `start` on their own worker, so
it holds in every state that such a run reaches. What it says about a `flush` that returns is
at the end.
-/
import NetworkApplication.CallPhases

set_option autoImplicit false

namespace NetworkApplication.WorkerCalls

/-! ## The invariant -/

/-- The call of `start`, `stop` or `flush` that has changed the status, and its caller. -/
abbrev Control := Option (Nat × Call)

/-- The callers: one is on its way from a change of the status to its return at most, and the
others have not got the mutex yet. -/
structure Callers (w : WorkerState CallThread) (callers : Nat → Option Call) (control : Control) :
    Prop where
  phase : Phase w (control.map Prod.snd)
  others : ∀ n c, callers n = some c → c.position = .called ∨ control = some (n, c)
  control : ∀ n c, control = some (n, c) → callers n = some c ∧ c.position ≠ .called
  before : ∀ n c, callers n = some c → ∀ x ∈ c.accepted, x ∈ w.queue.accepted
  left : ∀ n c, callers n = some c → c.call = .flush → w.status = .Stop → w.queue.tasks = []

/-- A thread that executes a task has the mutex, the worker is not stopped, and all that the
task may still call is `start`. -/
structure Runs (w : WorkerState CallThread) (m : Nat) (calls : List WorkerCall)
    (call : Option Call) : Prop where
  mutex : w.mutex = some (.worker m)
  status : w.status ≠ .Stop
  calls : ∀ c ∈ calls, c = .start
  call : ∀ c, call = some c → c.call = .start ∧ c.position = .called

/-- The threads of the worker, and where the tasks are. -/
structure Threads (w : WorkerState CallThread) (threads : Nat → ThreadAt) : Prop where
  fresh : ∀ m, w.spawned ≤ m → threads m = .test
  holder : ∀ t, w.mutex = some t → ∃ m task calls call, Alive m w ∧
    threads m = .running task calls call
  running : ∀ m task calls call, Alive m w → threads m = .running task calls call →
    Runs w m calls call
  ended : ∀ m task calls call, w.exited m = true → threads m ≠ .running task calls call
  history : ∀ x ∈ w.queue.accepted, x ∈ w.queue.executed.map Prod.fst ∨
    (x ∈ w.queue.cleared ∨ x ∈ w.queue.tasks) ∨
    ∃ m calls call, Alive m w ∧ threads m = .running x calls call

/-- All that is kept. -/
structure Inv (s : State) (control : Control) : Prop where
  sound : Sound s.worker
  callers : Callers s.worker s.callers control
  threads : Threads s.worker s.threads

section Steps

variable {w w' : WorkerState CallThread} {callers : Nat → Option Call} {threads : Nat → ThreadAt}
  {control : Control} {n m : Nat} {c : Call} {c' : Option Call}

/-- What a call does leaves the threads where they are. -/
theorem Threads.keeps (h : Threads w threads) (hk : Keeps w w') : Threads w' threads := by
  have halive : ∀ m, Alive m w → Alive m w' := fun m hm =>
    ⟨Nat.lt_of_lt_of_le hm.1 hk.spawned, by rw [hk.exited]; exact hm.2⟩
  refine ⟨fun m hm => h.fresh m (Nat.le_trans hk.spawned hm), ?_, ?_, ?_, ?_⟩
  · intro t ht
    rw [hk.mutex] at ht
    obtain ⟨m, task, calls, call, hm, hrunning⟩ := h.holder t ht
    exact ⟨m, task, calls, call, halive m hm, hrunning⟩
  · intro m task calls call hm hrunning
    have hold : Alive m w := by
      refine ⟨?_, by rw [← hk.exited]; exact hm.2⟩
      by_contra hnew
      rw [h.fresh m (Nat.le_of_not_lt hnew)] at hrunning
      cases hrunning
    have hruns := h.running m task calls call hold hrunning
    refine ⟨by rw [hk.mutex]; exact hruns.mutex, fun hstop => ?_, hruns.calls, hruns.call⟩
    rcases hk.stop hstop with hbefore | hfree
    · exact hruns.status hbefore
    · rw [hruns.mutex] at hfree
      cases hfree
  · rw [hk.exited]
    exact h.ended
  · intro x hx
    rw [hk.executed]
    rcases hk.kept x hx with hbefore | hadded
    · rcases h.history x hbefore with hdone | hqueued | ⟨m, calls, call, hm, hrunning⟩
      · exact .inl hdone
      · exact .inr (.inl (hk.queued x hqueued))
      · exact .inr (.inr ⟨m, calls, call, halive m hm, hrunning⟩)
    · exact .inr (.inl (.inr hadded))

/-- A call of `start`, `stop` or `flush` gets on, or changes the status when no other has. -/
theorem Callers.leads (h : Callers w callers control) (hn : callers n = some c)
    (hcontrol : control = some (n, c) ∨ control = none)
    (hleft : c.call = .stop false → w.status ≠ .Stop → w.queue.tasks ≠ [] →
      ∀ n' c', callers n' = some c' → c'.call ≠ .flush)
    (hl : Leads w c c' w') : Callers w' (Function.update callers n c') (c'.map (Prod.mk n)) := by
  have hcalls : ∀ n' c₁, Function.update callers n c' n' = some c₁ →
      ∃ c₀, callers n' = some c₀ ∧ c₁.call = c₀.call ∧ c₁.accepted = c₀.accepted := by
    intro n' c₁ hc₁
    by_cases hnn : n' = n
    · subst hnn
      rw [Function.update_self] at hc₁
      obtain ⟨hcall, haccepted, -⟩ := hl.call c₁ hc₁
      exact ⟨c, hn, hcall, haccepted⟩
    · rw [Function.update_of_ne hnn] at hc₁
      exact ⟨c₁, hc₁, rfl, rfl⟩
  refine ⟨?_, ?_, ?_, ?_, ?_⟩
  · cases c' <;> exact hl.phase
  · intro n' c₁ hc₁
    by_cases hnn : n' = n
    · subst hnn
      rw [Function.update_self] at hc₁
      rw [hc₁]
      exact .inr rfl
    · rw [Function.update_of_ne hnn] at hc₁
      refine .inl ((h.others n' c₁ hc₁).resolve_right fun hother => ?_)
      -- no second call is at work on the status
      rcases hcontrol with hself | hnone
      · rw [hself] at hother
        cases hother
        exact hnn rfl
      · rw [hnone] at hother
        cases hother
  · intro n' c₁ hc₁
    cases c' with
    | none => cases hc₁
    | some c₂ =>
      cases hc₁
      rw [Function.update_self]
      exact ⟨rfl, (hl.call c₁ rfl).2.2⟩
  · intro n' c₁ hc₁ x hx
    obtain ⟨c₀, hc₀, -, haccepted⟩ := hcalls n' c₁ hc₁
    rw [haccepted] at hx
    exact hl.keeps.accepted x (h.before n' c₀ hc₀ x hx)
  · intro n' c₁ hc₁ hflush hstop
    obtain ⟨c₀, hc₀, hcall, -⟩ := hcalls n' c₁ hc₁
    have hflush₀ : c₀.call = .flush := hcall.symm.trans hflush
    refine hl.left hstop ?_
    -- a `stop` that leaves tasks behind does not come in front of a `flush`
    rintro (hstopped | hstopFalse)
    · exact h.left n' c₀ hc₀ hflush₀ hstopped
    · by_contra htasks
      have hstopped : w.status ≠ .Stop := fun hstopped => htasks (h.left n' c₀ hc₀ hflush₀ hstopped)
      exact hleft hstopFalse hstopped htasks n' c₀ hc₀ hflush₀

/-- A call begins. -/
theorem Callers.begins {call : WorkerCall} (h : Callers w callers control) (hn : callers n = none)
    (hflush : call = .flush → w.status = .Stop → w.queue.tasks = []) :
    Callers w (Function.update callers n (some ⟨call, .called, w.queue.accepted⟩)) control := by
  have hcalls : ∀ {n' c}, Function.update callers n (some ⟨call, .called, w.queue.accepted⟩) n'
      = some c → c = ⟨call, .called, w.queue.accepted⟩ ∨ callers n' = some c := by
    intro n' c hc
    by_cases hnn : n' = n
    · subst hnn
      rw [Function.update_self] at hc
      cases hc
      exact .inl rfl
    · rw [Function.update_of_ne hnn] at hc
      exact .inr hc
  refine ⟨h.phase, ?_, ?_, ?_, ?_⟩
  · intro n' c hc
    rcases hcalls hc with rfl | hc
    · exact .inl rfl
    · exact h.others n' c hc
  · intro n' c hc
    obtain ⟨hcaller, hposition⟩ := h.control n' c hc
    have hnn : n' ≠ n := by
      rintro rfl
      rw [hn] at hcaller
      cases hcaller
    rw [Function.update_of_ne hnn]
    exact ⟨hcaller, hposition⟩
  · intro n' c hc x hx
    rcases hcalls hc with rfl | hc
    · exact hx
    · exact h.before n' c hc x hx
  · intro n' c hc hcall
    rcases hcalls hc with rfl | hc
    · exact hflush hcall
    · exact h.left n' c hc hcall

/-- A call that has changed nothing returns. -/
theorem Callers.returns (h : Callers w callers control) (hn : callers n = some c)
    (hposition : c.position = .called) : Callers w (Function.update callers n none) control := by
  have hcalls : ∀ {n' c}, Function.update callers n none n' = some c → callers n' = some c := by
    intro n' c hc
    by_cases hnn : n' = n
    · subst hnn
      rw [Function.update_self] at hc
      cases hc
    · rw [Function.update_of_ne hnn] at hc
      exact hc
  refine ⟨h.phase, fun n' c hc => h.others n' c (hcalls hc), ?_,
    fun n' c hc => h.before n' c (hcalls hc), fun n' c hc => h.left n' c (hcalls hc)⟩
  intro n' c₁ hc₁
  obtain ⟨hcaller, hbehind⟩ := h.control n' c₁ hc₁
  have hnn : n' ≠ n := by
    rintro rfl
    rw [hn] at hcaller
    cases hcaller
    exact hbehind hposition
  rw [Function.update_of_ne hnn]
  exact ⟨hcaller, hbehind⟩

/-- A task is added. -/
theorem Callers.addTask (h : Callers w callers control) :
    Callers (addTaskSection w) callers control := by
  refine ⟨phase_addTaskSection h.phase, h.others, h.control, ?_, ?_⟩
  · exact fun n c hc x hx => keeps_addTaskSection.accepted x (h.before n c hc x hx)
  · intro n c hc hflush hstop
    unfold addTaskSection at hstop ⊢
    by_cases hdrop : w.status = .Stop ∨ w.status = .Flush
    · rw [if_pos hdrop] at hstop ⊢
      exact h.left n c hc hflush hstop
    · rw [if_neg hdrop] at hstop
      exact absurd (.inl hstop) hdrop

theorem wake_call (c : Call) : c.wake.call = c.call ∧ c.wake.accepted = c.accepted ∧
    c.wake.position ≠ .asleep ∧ (c.wake.position = .called ↔ c.position = .called) := by
  unfold Call.wake
  by_cases hasleep : c.position = .asleep
  · rw [if_pos hasleep, hasleep]
    exact ⟨rfl, rfl, (fun h => by cases h), (fun h => by cases h), fun h => by cases h⟩
  · rw [if_neg hasleep]
    exact ⟨rfl, rfl, hasleep, Iff.rfl⟩

theorem phase_wake (h : Phase w (some c)) : Phase w (some c.wake) := by
  unfold Call.wake
  by_cases hasleep : c.position = .asleep
  · rw [if_pos hasleep]
    obtain ⟨call, position, accepted⟩ := c
    obtain rfl : position = .asleep := hasleep
    cases call with
    | flush => exact h.1
    | start => exact h.elim
    | stop clearQueue => exact h.elim
    | addTask => exact h.elim
  · rw [if_neg hasleep]
    exact h

/-- A `flush` that is asleep wakes. -/
theorem Callers.wakes (h : Callers w callers (some (n, c))) :
    Callers w (Function.update callers n (some c.wake)) (some (n, c.wake)) := by
  obtain ⟨hcaller, hposition⟩ := h.control n c rfl
  obtain ⟨hsame, haccepted, -, hcalled⟩ := wake_call c
  have hcalls : ∀ {n' c₁}, Function.update callers n (some c.wake) n' = some c₁ →
      n' = n ∧ c₁ = c.wake ∨ n' ≠ n ∧ callers n' = some c₁ := by
    intro n' c₁ hc₁
    by_cases hnn : n' = n
    · subst hnn
      rw [Function.update_self] at hc₁
      cases hc₁
      exact .inl ⟨rfl, rfl⟩
    · rw [Function.update_of_ne hnn] at hc₁
      exact .inr ⟨hnn, hc₁⟩
  refine ⟨phase_wake h.phase, ?_, ?_, ?_, ?_⟩
  · intro n' c₁ hc₁
    rcases hcalls hc₁ with ⟨rfl, rfl⟩ | ⟨hnn, hc₁⟩
    · exact .inr rfl
    · refine (h.others n' c₁ hc₁).imp_right fun hcontrol => ?_
      cases hcontrol
      exact absurd rfl hnn
  · intro n' c₁ hc₁
    cases hc₁
    rw [Function.update_self, ne_eq, hcalled]
    exact ⟨rfl, hposition⟩
  · intro n' c₁ hc₁ x hx
    rcases hcalls hc₁ with ⟨rfl, rfl⟩ | ⟨-, hc₁⟩
    · rw [haccepted] at hx
      exact h.before n' c hcaller x hx
    · exact h.before n' c₁ hc₁ x hx
  · intro n' c₁ hc₁ hflush
    rcases hcalls hc₁ with ⟨rfl, rfl⟩ | ⟨-, hc₁⟩
    · exact h.left n' c hcaller (hsame.symm.trans hflush)
    · exact h.left n' c₁ hc₁ hflush

/-- All that are asleep wake. -/
theorem Callers.notify (h : Callers w callers control) :
    Callers w (fun n => (callers n).map Call.wake) (control.map (fun x => (x.1, x.2.wake))) := by
  refine ⟨?_, ?_, ?_, ?_, ?_⟩
  · cases control with
    | none => exact h.phase
    | some x => exact phase_wake h.phase
  · intro n c hc
    obtain ⟨c₀, hc₀, rfl⟩ := Option.map_eq_some_iff.mp hc
    rcases h.others n c₀ hc₀ with hposition | rfl
    · exact .inl ((wake_call c₀).2.2.2.mpr hposition)
    · exact .inr rfl
  · intro n c hc
    obtain ⟨⟨n₀, c₀⟩, hcontrol, heq⟩ := Option.map_eq_some_iff.mp hc
    cases heq
    obtain ⟨hcaller, hposition⟩ := h.control n₀ c₀ hcontrol
    refine ⟨by rw [hcaller]; rfl, ?_⟩
    rw [ne_eq, (wake_call c₀).2.2.2]
    exact hposition
  · intro n c hc x hx
    obtain ⟨c₀, hc₀, rfl⟩ := Option.map_eq_some_iff.mp hc
    rw [(wake_call c₀).2.1] at hx
    exact h.before n c₀ hc₀ x hx
  · intro n c hc hflush
    obtain ⟨c₀, hc₀, rfl⟩ := Option.map_eq_some_iff.mp hc
    rw [(wake_call c₀).1] at hflush
    exact h.left n c₀ hc₀ hflush

/-- The worker works. -/
theorem Callers.works (h : Callers w callers control) (hw : Works w w') (hthread : w.thread ≠ none)
    (haccepted : w'.queue.accepted = w.queue.accepted)
    (hasleep : ∀ n c, control = some (n, c) → c.position = .asleep →
      w'.queue.tasks ≠ [] ∨ w'.mutex ≠ none) : Callers w' callers control := by
  refine ⟨hw.phase h.phase hthread ?_, h.others, h.control, ?_, ?_⟩
  · intro c hc
    obtain ⟨⟨n, c₀⟩, hcontrol, rfl⟩ := Option.map_eq_some_iff.mp hc
    exact hasleep n c₀ hcontrol
  · rw [haccepted]
    exact h.before
  · intro n c hc hflush hstop
    refine hw.tasks (h.left n c hc hflush ?_)
    rcases hw.status with hsame | ⟨-, hwork⟩
    · exact hsame.symm.trans hstop
    · rw [hstop] at hwork
      rcases hwork with h | h <;> cases h

/-- What a thread does is nothing to those that have not been created. -/
theorem Threads.fresh_update {at_ : ThreadAt} (h : Threads w threads) (hm : m < w.spawned) :
    ∀ m', w.spawned ≤ m' → Function.update threads m at_ m' = .test := by
  intro m' hm'
  have hmm : m' ≠ m := by
    rintro rfl
    exact Nat.lt_irrefl _ (Nat.lt_of_lt_of_le hm hm')
  rw [Function.update_of_ne hmm]
  exact h.fresh m' hm'

/-- A thread that is not in a task goes on outside of one. -/
theorem Threads.goesOn {at_ : ThreadAt} (h : Threads w threads) (hm : m < w.spawned)
    (hbefore : ∀ task calls call, threads m ≠ .running task calls call)
    (hbehind : ∀ task calls call, at_ ≠ .running task calls call) :
    Threads w (Function.update threads m at_) := by
  have hother : ∀ {m' task calls call}, threads m' = .running task calls call → m' ≠ m := by
    rintro m' task calls call hrunning rfl
    exact hbefore task calls call hrunning
  refine ⟨h.fresh_update hm, ?_, ?_, ?_, ?_⟩
  · intro t ht
    obtain ⟨m', task, calls, call, hm', hrunning⟩ := h.holder t ht
    refine ⟨m', task, calls, call, hm', ?_⟩
    rw [Function.update_of_ne (hother hrunning)]
    exact hrunning
  · intro m' task calls call hm' hrunning
    by_cases hmm : m' = m
    · subst hmm
      rw [Function.update_self] at hrunning
      exact absurd hrunning (hbehind task calls call)
    · rw [Function.update_of_ne hmm] at hrunning
      exact h.running m' task calls call hm' hrunning
  · intro m' task calls call hexited
    by_cases hmm : m' = m
    · subst hmm
      rw [Function.update_self]
      exact hbehind task calls call
    · rw [Function.update_of_ne hmm]
      exact h.ended m' task calls call hexited
  · intro x hx
    refine (h.history x hx).imp_right (Or.imp_right ?_)
    rintro ⟨m', calls, call, hm', hrunning⟩
    refine ⟨m', calls, call, hm', ?_⟩
    rw [Function.update_of_ne (hother hrunning)]
    exact hrunning

/-- What a thread that is alive does is nothing to those that have ended. -/
theorem Threads.ended_update {at_ : ThreadAt} (h : Threads w threads) (hm : Alive m w) :
    ∀ m' task calls call, w.exited m' = true →
      Function.update threads m at_ m' ≠ .running task calls call := by
  intro m' task calls call hexited
  have hmm : m' ≠ m := by
    rintro rfl
    rw [hm.2] at hexited
    cases hexited
  rw [Function.update_of_ne hmm]
  exact h.ended m' task calls call hexited

theorem alive_exits {m' : Nat} :
    Alive m' { w with exited := Function.update w.exited m true } ↔ Alive m' w ∧ m' ≠ m := by
  constructor
  · rintro ⟨hlt, hexited⟩
    have hexited : Function.update w.exited m true m' = false := hexited
    have hmm : m' ≠ m := by
      rintro rfl
      rw [Function.update_self] at hexited
      cases hexited
    rw [Function.update_of_ne hmm] at hexited
    exact ⟨⟨hlt, hexited⟩, hmm⟩
  · rintro ⟨⟨hlt, hexited⟩, hmm⟩
    exact ⟨hlt, (Function.update_of_ne hmm _ _).trans hexited⟩

/-- A thread that is not in a task ends. -/
theorem Threads.exits (h : Threads w threads)
    (hbefore : ∀ task calls call, threads m ≠ .running task calls call) :
    Threads { w with exited := Function.update w.exited m true } threads := by
  have halive : ∀ {m' task calls call}, Alive m' w → threads m' = .running task calls call →
      Alive m' { w with exited := Function.update w.exited m true } := by
    intro m' task calls call hm' hrunning
    refine alive_exits.mpr ⟨hm', ?_⟩
    rintro rfl
    exact hbefore task calls call hrunning
  refine ⟨h.fresh, ?_, ?_, ?_, ?_⟩
  · intro t ht
    obtain ⟨m', task, calls, call, hm', hrunning⟩ := h.holder t ht
    exact ⟨m', task, calls, call, halive hm' hrunning, hrunning⟩
  · intro m' task calls call hm' hrunning
    have hruns := h.running m' task calls call (alive_exits.mp hm').1 hrunning
    exact ⟨hruns.mutex, hruns.status, hruns.calls, hruns.call⟩
  · intro m' task calls call hexited
    by_cases hmm : m' = m
    · rw [hmm]
      exact hbefore task calls call
    · exact h.ended m' task calls call ((Function.update_of_ne hmm _ _).symm.trans hexited)
  · intro x hx
    refine (h.history x hx).imp_right (Or.imp_right ?_)
    rintro ⟨m', calls, call, hm', hrunning⟩
    exact ⟨m', calls, call, halive hm' hrunning, hrunning⟩

theorem Sound.exits (h : Sound w) (hm : m < w.spawned) :
    Sound { w with exited := Function.update w.exited m true } := by
  refine ⟨fun m' hm' => ?_, fun m' hm' => h.live m' (alive_exits.mp hm').1, h.handle⟩
  by_cases hmm : m' = m
  · rw [hmm]
    exact hm
  · exact h.exited m' ((Function.update_of_ne hmm _ _).symm.trans hm')

theorem works_exits (hdone : w.status = .Stop ∨ w.status = .Flush ∧ w.queue.tasks = []) :
    Works w { w with exited := Function.update w.exited m true } where
  status := .inl rfl
  thread := rfl
  tasks := id
  exited := fun _ _ => .inr hdone

/-- Somebody will notify a `flush` that is asleep: there is a task in the queue, or one that is
being executed. -/
theorem Callers.asleep (h : Callers w callers control) :
    ∀ n c, control = some (n, c) → c.position = .asleep → w.queue.tasks ≠ [] ∨ w.mutex ≠ none := by
  rintro n ⟨call, position, accepted⟩ rfl hasleep
  obtain rfl : position = .asleep := hasleep
  have hphase : Phase w (some ⟨call, .asleep, accepted⟩) := h.phase
  cases call with
  | flush => exact hphase.2
  | start => exact hphase.elim
  | stop clearQueue => exact hphase.elim
  | addTask => exact hphase.elim

/-- Only one thread is alive. -/
theorem Sound.alive_unique {m' : Nat} (h : Sound w) (hm : Alive m w) (hm' : Alive m' w) :
    m' = m := by
  have hsame := h.live m hm
  rw [h.live m' hm'] at hsame
  exact Option.some.inj hsame

/-- So a thread that is in a task behind a step of `m` is `m`. -/
theorem Sound.running_update {m' task : Nat} {calls : List WorkerCall} {call : Option Call}
    {at_ : ThreadAt} (h : Sound w) (hm : Alive m w) (hm' : Alive m' w)
    (hrunning : Function.update threads m at_ m' = .running task calls call) :
    m' = m ∧ at_ = .running task calls call := by
  obtain rfl := h.alive_unique hm hm'
  rw [Function.update_self] at hrunning
  exact ⟨rfl, hrunning⟩

/-- Where a thread is alive the worker has its handle. -/
theorem Sound.has_thread (h : Sound w) (hm : Alive m w) : w.thread ≠ none := by
  rw [h.live m hm]
  simp

/-- Where the mutex is free no thread is in a task. -/
theorem Threads.not_running (h : Threads w threads) (hm : Alive m w) (hfree : w.mutex = none)
    {task : Nat} {calls : List WorkerCall} {call : Option Call} :
    threads m ≠ .running task calls call := by
  intro hrunning
  have hmutex := (h.running m task calls call hm hrunning).mutex
  rw [hfree] at hmutex
  cases hmutex

end Steps

variable {tasks : Nat → List WorkerCall} {s s' : State} {control : Control} {m : Nat}

/-- A thread that has been let out of its loop ends. -/
theorem Inv.exits (h : Inv s control) (hm : Alive m s.worker)
    (hbefore : ∀ task calls call, s.threads m ≠ .running task calls call)
    (hdone : s.worker.status = .Stop ∨ s.worker.status = .Flush ∧ s.worker.queue.tasks = []) :
    Inv (s.exit m) control where
  sound := h.sound.exits hm.1
  callers := h.callers.works (works_exits hdone) (h.sound.has_thread hm) rfl h.callers.asleep
  threads := h.threads.exits hbefore

theorem Inv.goesOn {at_ : ThreadAt} (h : Inv s control) (hm : Alive m s.worker)
    (hbefore : ∀ task calls call, s.threads m ≠ .running task calls call)
    (hbehind : ∀ task calls call, at_ ≠ .running task calls call) :
    Inv (s.goesOn m at_) control where
  sound := h.sound
  callers := h.callers
  threads := h.threads.goesOn hm.1 hbefore hbehind

/-- A thread takes the next task, and calls nothing but `start` in it. -/
theorem Inv.takes {task : Nat} {rest : List Nat} (h : Inv s control) (hm : Alive m s.worker)
    (hfree : s.worker.mutex = none) (hstop : s.worker.status ≠ .Stop)
    (htasks : s.worker.queue.tasks = task :: rest) (hstart : ∀ c ∈ tasks task, c = .start) :
    Inv (({ s with worker := { s.worker with
        status := if s.worker.status = .Flush then .Flush else .Work
        queue := { s.worker.queue with tasks := rest, current_task := some task }
        mutex := some (.worker m) } } : State).goesOn m (.running task (tasks task) none))
      control where
  sound := ⟨h.sound.exited, h.sound.live, h.sound.handle⟩
  callers := by
    refine h.callers.works ⟨?_, rfl, fun hnil => ?_, fun _ => .inl⟩ (h.sound.has_thread hm) rfl
      (fun _ _ _ _ => .inr (by simp [State.goesOn]))
    · by_cases hflush : s.worker.status = .Flush
      · exact .inl ((if_pos hflush).trans hflush.symm)
      · refine .inr ⟨?_, .inr (if_neg hflush)⟩
        cases hstatus : s.worker.status with
        | Wait => exact .inl rfl
        | Work => exact .inr rfl
        | Flush => exact absurd hstatus hflush
        | Stop => exact absurd hstatus hstop
    · rw [htasks] at hnil
      cases hnil
  threads := by
    have hself : (Function.update s.threads m (.running task (tasks task) none)) m
        = .running task (tasks task) none := Function.update_self ..
    refine ⟨h.threads.fresh_update hm.1, fun t ht => ⟨m, task, tasks task, none, hm, hself⟩, ?_,
      h.threads.ended_update hm, fun x hx => ?_⟩
    · intro m' task' calls call hm' hrunning
      obtain ⟨rfl, heq⟩ := h.sound.running_update hm hm' hrunning
      cases heq
      refine ⟨rfl, ?_, hstart, fun c hc => by cases hc⟩
      show (if s.worker.status = .Flush then StatusWorker.Flush else .Work) ≠ .Stop
      split <;> decide
    -- the task leaves the queue and is found with the thread that executes it
    · rcases h.threads.history x hx with hdone | (hcleared | hqueued) |
        ⟨m', calls, call, hm', hrunning⟩
      · exact .inl hdone
      · exact .inr (.inl (.inl hcleared))
      · rw [htasks] at hqueued
        rcases List.mem_cons.mp hqueued with rfl | hrest
        · exact .inr (.inr ⟨m, _, _, hm, hself⟩)
        · exact .inr (.inl (.inr hrest))
      · exact absurd hrunning (h.threads.not_running hm' hfree)

/-- A thread comes out of its wait. -/
theorem Inv.next (h : Inv s control) (hm : Alive m s.worker) (hfree : s.worker.mutex = none)
    (hstart : ∀ task, ∀ c ∈ tasks task, c = .start) (hs : s.next tasks m = some s') :
    Inv s' control := by
  obtain ⟨⟨next, w⟩, hsection, heq⟩ := Option.map_eq_some_iff.mp hs
  have hbefore : ∀ task calls call, s.threads m ≠ .running task calls call :=
    fun _ _ _ => h.threads.not_running hm hfree
  rcases nextSection_cases hsection with ⟨rfl, rfl, hdone⟩ | ⟨rfl, rfl, -⟩ |
    ⟨task, rest, rfl, htasks, hstop, rfl⟩
  · cases heq
    exact h.exits hm hbefore hdone
  · cases heq
    exact h.goesOn hm hbefore (fun _ _ _ h => by cases h)
  · cases heq
    exact h.takes hm hfree hstop htasks (hstart task)

theorem Inv.notifyAll (h : Inv s control) :
    Inv s.notifyAll (control.map (fun x => (x.1, x.2.wake))) where
  sound := h.sound
  callers := h.callers.notify
  threads := h.threads

/-- The thread is in a task, and goes on with the calls of it. -/
theorem Inv.runs {task : Nat} {calls calls' : List WorkerCall} {call call' : Option Call}
    (h : Inv s control) (hm : Alive m s.worker) (hrunning : s.threads m = .running task calls call)
    (hcalls : ∀ c ∈ calls', c = .start) (hcall : ∀ c, call' = some c → c.call = .start ∧
      c.position = .called) : Inv (s.goesOn m (.running task calls' call')) control where
  sound := h.sound
  callers := h.callers
  threads := by
    have hruns := h.threads.running m task calls call hm hrunning
    have hself : Function.update s.threads m (.running task calls' call') m
        = .running task calls' call' := Function.update_self ..
    refine ⟨h.threads.fresh_update hm.1, fun t ht => ⟨m, task, calls', call', hm, hself⟩, ?_,
      h.threads.ended_update hm, fun x hx => ?_⟩
    · intro m' task' calls'' call'' hm' hrunning'
      obtain ⟨rfl, heq⟩ := h.sound.running_update hm hm' hrunning'
      cases heq
      exact ⟨hruns.mutex, hruns.status, hcalls, hcall⟩
    · refine (h.threads.history x hx).imp_right (Or.imp_right ?_)
      rintro ⟨m', calls'', call'', hm', hrunning'⟩
      obtain rfl : m' = m := h.sound.alive_unique hm hm'
      rw [hrunning] at hrunning'
      cases hrunning'
      exact ⟨m', calls', call', hm', hself⟩

/-- The worker behind a task, with the mutex given up. -/
def behind (w : WorkerState CallThread) (task : Nat) (threw : Bool) : WorkerState CallThread :=
  { (endSection task threw w).2 with mutex := none }

/-- A task ends, and nobody is asleep behind the last one. -/
theorem Inv.ends {task : Nat} {calls : List WorkerCall} {call : Option Call} {threw : Bool}
    (h : Inv s control) (hm : Alive m s.worker) (hrunning : s.threads m = .running task calls call)
    (hawake : ∀ n c, control = some (n, c) → c.position = .asleep → s.worker.queue.tasks ≠ []) :
    Inv (({ s with worker := behind s.worker task threw } : State).goesOn m .test) control := by
  have hruns := h.threads.running m task calls call hm hrunning
  have hbehind : behind s.worker task threw = { s.worker with
      status :=
        if s.worker.queue.tasks = [] ∧ s.worker.status ≠ .Flush then .Wait else s.worker.status
      mutex := none
      queue := { s.worker.queue with
        executed := s.worker.queue.executed ++ [(task, threw)]
        taskStatus :=
          Function.update s.worker.queue.taskStatus task (if threw then .Error else .Success)
        current_task := none } } := by
    unfold behind endSection
    simp only [if_neg hruns.status]
  rw [hbehind]
  refine ⟨⟨h.sound.exited, h.sound.live, h.sound.handle⟩, ?_, ?_⟩
  · refine h.callers.works ⟨?_, rfl, id, fun _ => .inl⟩ (h.sound.has_thread hm) rfl
      (fun n c hcontrol hasleep => .inl (hawake n c hcontrol hasleep))
    -- the section sets `Wait` behind the last task, unless the worker is being flushed
    by_cases hwait : s.worker.queue.tasks = [] ∧ s.worker.status ≠ .Flush
    · refine .inr ⟨?_, .inl (if_pos hwait)⟩
      cases hstatus : s.worker.status with
      | Wait => exact .inl rfl
      | Work => exact .inr rfl
      | Flush => exact absurd hstatus hwait.2
      | Stop => exact absurd hstatus hruns.status
    · exact .inl (if_neg hwait)
  · refine ⟨h.threads.fresh_update hm.1, (fun t ht => by cases ht), ?_, h.threads.ended_update hm,
      fun x hx => ?_⟩
    · intro m' task' calls' call' hm' hrunning'
      obtain ⟨-, heq⟩ := h.sound.running_update hm hm' hrunning'
      cases heq
    · have hexecuted : List.map Prod.fst (s.worker.queue.executed ++ [(task, threw)])
          = s.worker.queue.executed.map Prod.fst ++ [task] := List.map_append ..
      -- a task that was accepted has been executed, or waits, or is the one that ends
      rcases h.threads.history x hx with hdone | hqueued | ⟨m', calls', call', hm', hrunning'⟩
      · refine .inl ?_
        show x ∈ List.map Prod.fst (s.worker.queue.executed ++ [(task, threw)])
        rw [hexecuted]
        exact List.mem_append_left _ hdone
      · exact .inr (.inl hqueued)
      · obtain rfl : m' = m := h.sound.alive_unique hm hm'
        rw [hrunning] at hrunning'
        cases hrunning'
        refine .inl ?_
        show task ∈ List.map Prod.fst (s.worker.queue.executed ++ [(task, threw)])
        rw [hexecuted]
        exact List.mem_append_right _ (List.mem_singleton_self task)

/-- A task ends; the last one of the queue wakes all that are asleep. -/
theorem Inv.taskEnded {task : Nat} {calls : List WorkerCall} {call : Option Call} {threw : Bool}
    (h : Inv s control) (hm : Alive m s.worker) (hrunning : s.threads m = .running task calls call) :
    ∃ control', Inv (s.taskEnded m task threw) control' := by
  have hruns := h.threads.running m task calls call hm hrunning
  have hagain : (endSection task threw s.worker).1 = true := by
    unfold endSection
    rw [if_neg hruns.status]
  have htasks : (endSection task threw s.worker).2.queue.tasks = s.worker.queue.tasks := by
    unfold endSection
    rw [if_neg hruns.status]
  unfold State.taskEnded
  simp only [hagain, if_true, htasks]
  by_cases hempty : s.worker.queue.tasks = []
  -- the last task notifies, so that nobody sleeps on an empty queue
  · rw [if_pos hempty]
    refine ⟨_, h.notifyAll.ends hm hrunning (fun n c hcontrol hasleep => ?_)⟩
    obtain ⟨x, -, heq⟩ := Option.map_eq_some_iff.mp hcontrol
    cases heq
    exact absurd hasleep (wake_call x.2).2.2.1
  · rw [if_neg hempty]
    exact ⟨control, h.ends hm hrunning (fun _ _ _ _ => hempty)⟩

/-- A step of a thread of the worker. -/
theorem Inv.threadStep {threw : Bool} (h : Inv s control) (hm : Alive m s.worker)
    (hstart : ∀ task, ∀ c ∈ tasks task, c = .start) (hs : s.threadStep tasks m threw = some s') :
    ∃ control', Inv s' control' := by
  unfold State.threadStep at hs
  cases hat : s.threads m with
  | test =>
    rw [hat] at hs
    cases hs
    have hbefore : ∀ task calls call, s.threads m ≠ .running task calls call := by
      rw [hat]
      exact fun _ _ _ h => by cases h
    by_cases hstop : s.worker.status = .Stop
    · rw [if_pos hstop]
      exact ⟨control, h.exits hm hbefore (.inl hstop)⟩
    · rw [if_neg hstop]
      exact ⟨control, h.goesOn hm hbefore (fun _ _ _ h => by cases h)⟩
  | lock =>
    simp only [hat, Option.ite_none_right_eq_some] at hs
    obtain ⟨hfree, hs⟩ := hs
    cases hready : s.worker.workReady with
    | true =>
      rw [hready] at hs
      exact ⟨control, h.next hm hfree hstart hs⟩
    | false =>
      rw [hready] at hs
      cases hs
      exact ⟨control, h.goesOn hm (fun _ _ _ => h.threads.not_running hm hfree)
        (fun _ _ _ h => by cases h)⟩
  | asleep =>
    simp only [hat, Option.ite_none_right_eq_some] at hs
    exact ⟨control, h.next hm hs.1 hstart hs.2⟩
  | running task calls call =>
    have hruns := h.threads.running m task calls call hm hat
    cases call with
    | some c =>
      -- what the task has called is `start`, and that finds nothing to do
      obtain ⟨hcall, hposition⟩ := hruns.call c rfl
      obtain ⟨call, position, accepted⟩ := c
      obtain rfl : call = .start := hcall
      obtain rfl : position = .called := hposition
      simp only [hat, Call.step, if_neg hruns.status, Option.map_some, Bool.false_eq_true, if_false,
        Option.some.injEq] at hs
      subst hs
      exact ⟨control, h.runs hm hat hruns.calls (fun c hc => by cases hc)⟩
    | none =>
      cases calls with
      | nil =>
        rw [hat] at hs
        cases hs
        exact h.taskEnded hm hat
      | cons call calls =>
        rw [hat] at hs
        cases hs
        refine ⟨control, h.runs hm hat (fun c hc => hruns.calls c (List.mem_cons_of_mem _ hc)) ?_⟩
        rintro c hc
        cases hc
        exact ⟨hruns.calls call (List.mem_cons_self ..), rfl⟩

/-- A call that changes nothing returns at once. -/
theorem step_returns {c : Call} {c' : Option Call} {notifies : Bool} {w w' : WorkerState CallThread}
    (hposition : c.position = .called) (hidle : ¬ Effective w c.call) (hcall : c.call ≠ .addTask)
    (hstep : c.step w = some (c', notifies, w')) : c' = none ∧ notifies = false ∧ w' = w := by
  obtain ⟨call, position, accepted⟩ := c
  obtain rfl : position = .called := hposition
  cases call with
  | start =>
    simp only [Call.step, if_neg (show ¬ w.status = .Stop from hidle), Option.some.injEq,
      Prod.mk.injEq] at hstep
    exact ⟨hstep.1.symm, hstep.2.1.symm, hstep.2.2.symm⟩
  | stop clearQueue =>
    have hstop : w.status = .Stop := not_not.mp hidle
    simp only [Call.step, stopSection, if_pos hstop, Bool.false_eq_true, if_false,
      Option.ite_none_right_eq_some, Option.some.injEq, Prod.mk.injEq] at hstep
    exact ⟨hstep.2.1.symm, hstep.2.2.1.symm, hstep.2.2.2.symm⟩
  | flush => exact absurd trivial hidle
  | addTask => exact absurd rfl hcall

/-- Where nobody has changed the status every call may be the next that does. -/
theorem Callers.phase_called {w : WorkerState CallThread} {callers : Nat → Option Call} {n : Nat}
    {c : Call} (h : Callers w callers none) (hn : callers n = some c)
    (hposition : c.position = .called) (hcall : c.call ≠ .addTask) : Phase w (some c) := by
  have hbase : Base w := h.phase
  obtain ⟨call, position, accepted⟩ := c
  obtain rfl : position = .called := hposition
  cases call with
  | start => exact hbase
  | stop clearQueue => exact hbase
  | flush => exact ⟨hbase, h.left n _ hn rfl⟩
  | addTask => exact absurd rfl hcall

/-- A call that is going on is that of the one caller who has changed the status. -/
theorem Inv.caller_cases {n : Nat} {c : Call} {c' : Option Call} {notifies threw : Bool}
    {w : WorkerState CallThread} (h : Inv s control) (hc : s.callers n = some c)
    (hordered : Ordered s (.moves (.caller n) threw))
    (hstep : c.step s.worker = some (c', notifies, w)) :
    (c' = none ∧ notifies = false ∧ c.position = .called ∧ c.call ≠ .flush ∧
      (w = s.worker ∨ w = addTaskSection s.worker)) ∨
    Leads s.worker c c' w ∧ (control = some (n, c) ∨ control = none) ∧
      (c.call = .stop false → s.worker.status ≠ .Stop → s.worker.queue.tasks ≠ [] →
        ∀ n' c', s.callers n' = some c' → c'.call ≠ .flush) := by
  by_cases hposition : c.position = .called
  -- it has not had the mutex yet: it adds a task, changes the status or finds nothing to do
  · by_cases hcall : c.call = .addTask
    · obtain ⟨call, position, accepted⟩ := c
      obtain rfl : call = .addTask := hcall
      obtain rfl : position = .called := hposition
      simp only [Call.step, Option.ite_none_right_eq_some, Option.some.injEq, Prod.mk.injEq] at hstep
      obtain ⟨-, rfl, rfl, rfl⟩ := hstep
      exact .inl ⟨rfl, rfl, rfl, (fun h => by cases h), .inr rfl⟩
    by_cases heffective : Effective s.worker c.call
    · obtain ⟨halone, hleft⟩ := hordered c hc hposition heffective
      obtain rfl : control = none := by
        cases hcontrol : control with
        | none => rfl
        | some x =>
          obtain ⟨hcaller, hbehind⟩ := h.callers.control x.1 x.2 hcontrol
          exact absurd (halone x.1 x.2 hcaller) hbehind
      have hphase := h.callers.phase_called hc hposition hcall
      exact .inr ⟨leads_step hcall hphase h.sound hstep, .inr rfl,
        fun hstopFalse _ => hleft hstopFalse⟩
    · obtain ⟨rfl, rfl, rfl⟩ := step_returns hposition heffective hcall hstep
      refine .inl ⟨rfl, rfl, hposition, fun hflush => heffective ?_, .inl rfl⟩
      rw [hflush]
      trivial
  -- it has changed the status, and so no other has
  · obtain rfl := (h.callers.others n c hc).resolve_left hposition
    have hphase : Phase s.worker (some c) := h.callers.phase
    refine .inr ⟨leads_step ?_ hphase h.sound hstep, .inl rfl, ?_⟩
    · intro hcall
      obtain ⟨call, position, accepted⟩ := c
      obtain rfl : call = .addTask := hcall
      cases position <;> exact hphase.elim
    · intro hstopFalse hstop
      obtain ⟨call, position, accepted⟩ := c
      obtain rfl : call = .stop false := hstopFalse
      cases position with
      | called => exact absurd rfl hposition
      | joining => exact absurd hphase hstop
      | joins => exact absurd hphase.1 hstop
      | storing | spawning | waiting | asleep => exact hphase.elim

/-- A step of a caller. -/
theorem Inv.callerStep {n : Nat} {threw : Bool} (h : Inv s control)
    (hordered : Ordered s (.moves (.caller n) threw)) (hs : s.callerStep n = some s') :
    ∃ control', Inv s' control' := by
  obtain ⟨c, hc, hs⟩ := Option.bind_eq_some_iff.mp hs
  obtain ⟨⟨c', notifies, w⟩, hstep, heq⟩ := Option.map_eq_some_iff.mp hs
  rcases h.caller_cases hc hordered hstep with ⟨rfl, rfl, hposition, -, rfl | rfl⟩ |
    ⟨hleads, hcontrol, hleft⟩
  · have hnext : Inv { s with callers := Function.update s.callers n none } control :=
      ⟨h.sound, h.callers.returns hc hposition, h.threads⟩
    cases heq
    exact ⟨control, hnext⟩
  · have hsound : Sound (addTaskSection s.worker) := by
      unfold addTaskSection
      split
      · exact h.sound
      · exact ⟨h.sound.exited, h.sound.live, h.sound.handle⟩
    have hnext : Inv { s with
        worker := addTaskSection s.worker
        callers := Function.update s.callers n none } control :=
      ⟨hsound, h.callers.addTask.returns hc hposition, h.threads.keeps keeps_addTaskSection⟩
    cases heq
    exact ⟨control, hnext⟩
  · have hnext : Inv { s with worker := w, callers := Function.update s.callers n c' }
        (c'.map (Prod.mk n)) :=
      ⟨hleads.sound, h.callers.leads hc hcontrol hleft hleads, h.threads.keeps hleads.keeps⟩
    cases heq
    cases notifies with
    | false => exact ⟨_, hnext⟩
    | true => exact ⟨_, hnext.notifyAll⟩

/-- A call begins. -/
theorem Inv.begins {n : Nat} {call : WorkerCall} (h : Inv s control) (hn : s.callers n = none)
    (hordered : Ordered s (.begins n call)) :
    Inv { s with callers :=
      Function.update s.callers n (some ⟨call, .called, s.worker.queue.accepted⟩) } control :=
  ⟨h.sound, h.callers.begins hn hordered, h.threads⟩

/-- **Step lemma.** -/
theorem Inv.step {a : Action} (h : Inv s control) (hstart : ∀ task, ∀ c ∈ tasks task, c = .start)
    (hordered : Ordered s a) (hs : step tasks s a = some s') : ∃ control', Inv s' control' := by
  cases a with
  | begins n call =>
    simp only [WorkerCalls.step, Option.ite_none_right_eq_some, Option.some.injEq] at hs
    obtain ⟨hn, rfl⟩ := hs
    exact ⟨control, h.begins (Option.isNone_iff_eq_none.mp hn) hordered⟩
  | moves t threw =>
    cases t with
    | caller n => exact h.callerStep hordered hs
    | worker m =>
      simp only [WorkerCalls.step, Option.ite_none_right_eq_some] at hs
      exact h.threadStep hs.1 hstart hs.2
  | wakes n =>
    obtain ⟨c, hc, hs⟩ := Option.bind_eq_some_iff.mp hs
    rw [Option.ite_none_right_eq_some] at hs
    obtain ⟨hasleep, heq⟩ := hs
    cases heq
    have hwake : c.goesOn .waiting = c.wake := (if_pos hasleep).symm
    rcases h.callers.others n c hc with hposition | rfl
    · rw [hasleep] at hposition
      cases hposition
    · rw [hwake]
      exact ⟨_, h.sound, h.callers.wakes, h.threads⟩

theorem inv_constructed (n : Nat) : Inv (constructed n) none where
  sound := by
    refine ⟨(fun m hm => by cases hm), fun m hm => ?_, fun m hm => ?_⟩
    · have hlt : m < 1 := hm.1
      obtain rfl : m = 0 := by omega
      rfl
    · cases hm
      exact Nat.one_pos
  callers := by
    exact ⟨.inr (.inr ⟨.inl rfl, 0, rfl, rfl⟩), (fun _ _ h => by cases h), (fun _ _ h => by cases h),
      (fun _ _ h => by cases h), fun _ _ h => by cases h⟩
  threads := by
    exact ⟨fun _ _ => rfl, (fun _ h => by cases h), (fun _ _ _ _ _ h => by cases h),
      (fun _ _ _ _ h => by cases h), fun x hx => .inr (.inl (.inr hx))⟩

/-- **Run lemma.** -/
theorem inv_of_reaches {n : Nat} (hstart : ∀ task, ∀ c ∈ tasks task, c = .start)
    (h : Reaches tasks Ordered (constructed n) s) : ∃ control, Inv s control := by
  induction h with
  | refl => exact ⟨none, inv_constructed n⟩
  | step _ hordered hstep ih =>
    obtain ⟨control, hinv⟩ := ih
    exact hinv.step hstart hordered hstep

/-! ## What a `flush` leaves behind -/

/-- Where the queue is empty and the worker has no thread, every task has been executed or
cleared. -/
theorem Inv.settled (h : Inv s control) (hempty : s.worker.queue.tasks = [])
    (hthread : s.worker.thread = none) :
    ∀ x ∈ s.worker.queue.accepted, x ∈ s.worker.queue.executed.map Prod.fst ∨
      x ∈ s.worker.queue.cleared := by
  intro x hx
  rcases h.threads.history x hx with hdone | (hcleared | hqueued) | ⟨m, calls, call, hm, -⟩
  · exact .inl hdone
  · exact .inr hcleared
  · rw [hempty] at hqueued
    cases hqueued
  · rw [h.sound.live m hm] at hthread
    cases hthread

theorem call_running {task : Nat} {calls : List WorkerCall} {call : Option Call}
    (hat : s.threads m = .running task calls call) : s.call (.worker m) = call := by
  simp only [State.call, hat]

theorem call_worker {c : Call} (hc : s.call (.worker m) = some c) :
    ∃ task calls, s.threads m = .running task calls (some c) := by
  unfold State.call at hc
  cases hat : s.threads m with
  | running task calls call =>
    simp only [hat] at hc
    exact ⟨task, calls, by rw [hc]⟩
  | test =>
    simp only [hat] at hc
    cases hc
  | lock =>
    simp only [hat] at hc
    cases hc
  | asleep =>
    simp only [hat] at hc
    cases hc

/-- The call of a task is a `start`. -/
theorem Inv.call_worker {c : Call} (h : Inv s control) (hm : Alive m s.worker)
    (hc : s.call (.worker m) = some c) : c.call = .start := by
  obtain ⟨task, calls, hat⟩ := WorkerCalls.call_worker hc
  exact ((h.threads.running m task calls (some c) hm hat).call c rfl).1

theorem callers_notified {notifies : Bool} {n : Nat} :
    (if notifies then s.notifyAll else s).callers n = none ↔ s.callers n = none := by
  cases notifies with
  | false => exact Iff.rfl
  | true => exact Option.map_eq_none_iff

/-- A `flush` returns behind all the tasks that had been accepted when it began. -/
theorem Inv.flushed {t : CallThread} {c : Call} {threw : Bool} (h : Inv s control)
    (hstart : ∀ task, ∀ c ∈ tasks task, c = .start) (hordered : Ordered s (.moves t threw))
    (hc : s.call t = some c) (hflush : c.call = .flush)
    (hs : WorkerCalls.step tasks s (.moves t threw) = some s') (hreturned : s'.call t = none) :
    ∀ x ∈ c.accepted, x ∈ s'.worker.queue.executed.map Prod.fst ∨ x ∈ s'.worker.queue.cleared := by
  obtain ⟨control', h'⟩ := h.step hstart hordered hs
  cases t with
  | worker m =>
    simp only [WorkerCalls.step, Option.ite_none_right_eq_some] at hs
    rw [h.call_worker hs.1 hc] at hflush
    cases hflush
  | caller n =>
    have hc : s.callers n = some c := hc
    obtain ⟨c₀, hc₀, hs⟩ := Option.bind_eq_some_iff.mp hs
    rw [hc] at hc₀
    cases hc₀
    obtain ⟨⟨c', notifies, w⟩, hstep, heq⟩ := Option.map_eq_some_iff.mp hs
    rcases h.caller_cases hc hordered hstep with ⟨-, -, -, hother, -⟩ | ⟨hleads, -, -⟩
    · exact absurd hflush hother
    have hworker : s'.worker = w := by
      cases heq
      cases notifies <;> rfl
    have hnone : c' = none := by
      cases heq
      have hcaller : Function.update s.callers n c' n = none := callers_notified.mp hreturned
      rw [Function.update_self] at hcaller
      exact hcaller
    obtain ⟨hempty, hthread⟩ := hleads.flushed hflush hnone
    intro x hx
    refine h'.settled (by rw [hworker]; exact hempty) (by rw [hworker]; exact hthread) x ?_
    rw [hworker]
    exact hleads.keeps.accepted x (h.callers.before n c hc x hx)

end NetworkApplication.WorkerCalls
