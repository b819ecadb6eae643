/-
`stop` never waits on a blocked reader.

`stop` copies the map and disconnects what it has copied, while the accept loop may put a
session in and a reader may take one out. A session that is put in behind the copy gets
no reader: the flag was cleared before, and the accept loop looks at it again before it
creates a worker. A session that was taken out before the copy is closed by the thread that
took it out, which has nothing to wait for in between: the error path goes from the removal
to the close over the mutex of the map alone (`Closes`). And what was copied is closed by
the loop.

So behind the loop a reader that reads, or will ever read, does so on a closed socket, or
on one that is being closed; the read fails, and the reader sees the flag.
-/
import NetworkApplication.RegistryRuns

set_option autoImplicit false

namespace NetworkApplication.Shutdown

open NetworkApplication.Program NetworkApplication.Pool NetworkApplication.Disciplines
open SegmentServer Registry

/-! ## Error paths -/

/-- The result says that the socket `a` is closed. -/
def SawClosed (a : Nat) : (o : Op) → o.Res → Prop
  | .isOpen b, is_open => b = a ∧ is_open = false
  | _, _ => False

/-- The program closes the socket `a`, unless it sees it closed, and waits for nothing but
the mutex of the map until it has. -/
def Closes (a : Nat) : NetProg (Option ServerLabel) → Prop
  | .op o k => o = .close a ∨ NonWaiting o ∧ ∀ r, ¬ SawClosed a o r → Closes a (k r)
  | _ => False

variable {ids : Nat → UInt64} {P : Platform} {server : SegmentServer} {usage : Usage}
  {t u : Thread} {f : Facts} {fs : Thread → Facts} {w w' : World} {p : SessionPtr}

/-- Whatever a thread owes is still owed behind an operation that does not wait, unless it
is closed or seen closed. -/
theorem owes_nonWaiting {a : Nat} {o : Op} {r : o.Res} (ho : NonWaiting o) (hclose : o ≠ .close a)
    (hsaw : ¬ SawClosed a o r) (ha : a ∈ f.owes) : a ∈ (f.next o r).owes := by
  cases o with
  | isOpen b =>
    cases r with
    | true => exact ha
    | false => exact mem_owes_closed.mpr ⟨ha, fun hab => hsaw ⟨hab.symm, rfl⟩⟩
  | close b =>
    have hkept : a ∈ (f.closed b).owes :=
      mem_owes_closed.mpr ⟨ha, fun hab => hclose (congrArg Op.close hab.symm)⟩
    simp only [Facts.next]
    split
    · exact hkept
    · exact hkept
  | shutdown b => exact ha
  | setCriticalError b => exact ha
  | mapGet id =>
    cases r with
    | none => exact ha
    | some q =>
      simp only [Facts.next]
      split
      · exact ha
      · exact ha
  | mapErase id => exact List.mem_append_left _ ha
  | _ => exact ho.elim

/-- A thread that owes a socket is on its way to close it. -/
theorem closes_of_owes {a : Nat} {post : Option ServerLabel → Facts → Prop}
    {exn : Exception → Facts → Prop} {q : NetProg (Option ServerLabel)}
    (hq : Follows (rules server usage t) post exn f q) (hpost : ∀ next f, post next f → f.owes = [])
    (hexn : ∀ e f, exn e f → f.owes = []) (ha : a ∈ f.owes) : Closes a q := by
  have hsome : f.owes ≠ [] := List.ne_nil_of_mem ha
  induction q generalizing f with
  | pure next => exact absurd (hpost next f hq) hsome
  | throw e => exact absurd (hexn e f hq) hsome
  | crash => exact absurd hq.1 hsome
  | op o k ih =>
    obtain ⟨⟨hwaits, -⟩, hk⟩ := hq
    have ho : NonWaiting o := hwaits.resolve_right hsome
    by_cases hclose : o = .close a
    · exact .inl hclose
    · refine .inr ⟨ho, fun r hsaw => ?_⟩
      have howes := owes_nonWaiting ho hclose hsaw ha
      refine ih r (hk r ?_) howes (List.ne_nil_of_mem howes)
      -- while something is owed, anything may be seen
      cases o with
      | mapGet id =>
        cases r with
        | none => trivial
        | some q => exact fun hnil => absurd hnil hsome
      | isOpen => trivial
      | close => trivial
      | shutdown => trivial
      | setCriticalError => trivial
      | mapErase => trivial
      | _ => exact ho.elim

/-- Nothing is owed where a block ends. -/
theorem owes_atNext {next : Option ServerLabel} (h : atNext usage t next f) : f.owes = [] := by
  cases next with
  | none => exact h.1
  | some l =>
    cases l with
    | acceptLoop => exact h.2.1.owes
    | sessionWork n p => exact h.2.2.1.owes
    | flushMain => exact h.2.1
    | flushWorkers n => exact h.2.1
    | userLoop => exact h.2.2.2.owes
    | networkLoop => exact h.2

/-! ## What `stop` leaves -/

/-- The session's socket is closed, or a thread is to close it. -/
def Ending (fs : Thread → Facts) (w : World) (p : SessionPtr) : Prop :=
  w.isOpen p.addr = false ∨ ∃ t, p.addr ∈ (fs t).owes

/-- A worker was created for the id, or is about to be. -/
def Granted (fs : Thread → Facts) (w : World) (id : UInt32) : Prop :=
  (∃ W ∈ w.sessionWorkers, UInt64.toUInt32 W = id) ∨
    ∃ ID, (fs .main).stage = .granted ID ∧ UInt64.toUInt32 ID = id

/-- The socket of a session that was taken out of the map is ending; so is, behind the loop
of `stop`, that of every session with a worker. In between, what has a worker was copied or
taken out. -/
structure Covered (fs : Thread → Facts) (w : World) : Prop where
  removed : ∀ p ∈ w.registered, w.getSession p.sessionID = none → Ending fs w p
  copied : ∀ copy_map, (fs .control).stop = .copied copy_map → ∀ p ∈ w.registered,
    Granted fs w p.sessionID → p ∈ copy_map ∨ w.getSession p.sessionID = none
  looped : (fs .control).stop = .looped → ∀ p ∈ w.registered, Granted fs w p.sessionID →
    Ending fs w p

/-- What thread `t` knows behind an operation. -/
abbrev after (fs : Thread → Facts) (t : Thread) (o : Op) (r : o.Res) : Thread → Facts :=
  Function.update fs t ((fs t).next o r)

/-- Once `stop` has begun, the flag is cleared. -/
theorem idle_of_stop (hK : Knowledge ids usage fs w) (hstop : (fs .control).stop ≠ .running) :
    w.isWork = false := by
  have hat := (hK.2 .control).stop rfl
  cases hstage : (fs .control).stop with
  | running => exact absurd hstage hstop
  | cleared =>
    rw [hstage] at hat
    exact hat
  | _ =>
    rw [hstage] at hat
    exact hat.1

section OneOperation

variable {o : Op} {c : Choice} {r : o.Res} (hK : Knowledge ids usage fs w)
  (ho : (rules server usage t).Allowed (fs t) o) (h : sem ids o c w = some (r, w'))
include hK ho h

theorem later : Later w w' := (moves hK.1 (hK.2 t) ho h).2.later

theorem ending_next (hp : p ∈ w.registered) (hending : Ending fs w p) :
    Ending (after fs t o r) w' p := by
  rcases hending with hclosed | ⟨u, hu⟩
  · exact .inl ((later hK ho h).shut p hp hclosed)
  · by_cases hut : u = t
    · subst hut
      rcases owes_next h hu with howed | hclosed
      · exact .inr ⟨u, by rwa [after, Function.update_self]⟩
      · exact .inl hclosed
    · exact .inr ⟨u, by rwa [after, Function.update_of_ne hut]⟩

/-- Who takes an entry out of the map owes the socket, unless it is closed. -/
theorem ending_mapErase (hp : p ∈ w.registered) (herase : o = .mapErase p.sessionID) :
    Ending (after fs t o r) w' p := by
  have hlater := later hK ho h
  subst herase
  obtain ⟨-, q, hq, hid⟩ := ho
  obtain rfl := hK.1.sessionIDs q ((hK.2 t).known q hq) p hp hid
  by_cases hshut : q.addr ∈ (fs t).shut
  · have hclosed := ((hK.2 t).shut q.addr hshut).1
    exact .inl (hlater.shut q hp hclosed)
  · refine .inr ⟨t, ?_⟩
    rw [after, Function.update_self]
    refine List.mem_append_right _ (List.mem_map.mpr ⟨q, List.mem_filter.mpr ⟨hq, ?_⟩, rfl⟩)
    rw [Bool.and_eq_true, beq_iff_eq, Bool.not_eq_true', List.contains_eq_mem,
      decide_eq_false_iff_not]
    exact ⟨rfl, hshut⟩

theorem removed_next (hcovered : Covered fs w) (hp : p ∈ w'.registered)
    (hgone : w'.getSession p.sessionID = none) : Ending (after fs t o r) w' p := by
  rcases inserted_next ho h hp with hold | ⟨ID, rfl, rfl, haccepted, hfound⟩
  · cases hfound : w.getSession p.sessionID with
    | none => exact ending_next hK ho h hold (hcovered.removed p hold hfound)
    | some q =>
      rcases gone_next hK.1 (hK.2 t) ho h hfound with hkept | herase
      · rw [hgone] at hkept
        cases hkept
      · exact ending_mapErase hK ho h hold herase
  · -- a session that has just been put in is there
    have hat := (hK.2 .main).stage
    rw [haccepted] at hat
    rw [hat.2.1.1, hfound] at hgone
    cases hgone

/-- Once the flag is cleared, no session that has no worker gets one. -/
theorem granted_before (hidle : w.isWork = false) (hp : p ∈ w'.registered)
    (hgranted : Granted (after fs t o r) w' p.sessionID) :
    p ∈ w.registered ∧ Granted fs w p.sessionID := by
  have hbefore : Granted fs w p.sessionID := by
    rcases hgranted with ⟨W, hW, hid⟩ | ⟨ID, hstage, hid⟩
    · rcases workers_next ho h hW with hold | ⟨-, rfl, hstage⟩
      · exact .inl ⟨W, hold, hid⟩
      · exact .inr ⟨W, hstage, hid⟩
    · by_cases ht : t = .main
      · subst ht
        rw [after, Function.update_self] at hstage
        rcases granted_next h hstage with hold | ⟨-, -, hwork⟩
        · exact .inr ⟨ID, hold, hid⟩
        · rw [hidle] at hwork
          cases hwork
      · rw [after, Function.update_of_ne (Ne.symm ht)] at hstage
        exact .inr ⟨ID, hstage, hid⟩
  refine ⟨?_, hbefore⟩
  rcases inserted_next ho h hp with hold | ⟨ID, rfl, rfl, haccepted, -⟩
  · exact hold
  · -- a session that is only now put in has none
    have hat := (hK.2 .main).stage
    rw [haccepted] at hat
    obtain ⟨⟨⟨-, hnone⟩, -⟩, ⟨hid, -⟩, -⟩ := hat
    rcases hbefore with ⟨W, hW, hWid⟩ | ⟨ID', hstage, -⟩
    · exact absurd (hWid.trans hid) (hnone W hW)
    · rw [haccepted] at hstage
      cases hstage

theorem copied_covered (hcovered : Covered fs w) {copy_map : List SessionPtr}
    (hstop : (after fs t o r .control).stop = .copied copy_map) (hp : p ∈ w'.registered)
    (hgranted : Granted (after fs t o r) w' p.sessionID) :
    p ∈ copy_map ∨ w'.getSession p.sessionID = none := by
  have hold : (fs .control).stop = .copied copy_map →
      p ∈ copy_map ∨ w'.getSession p.sessionID = none := by
    intro hcopied
    have hidle := idle_of_stop hK (by simp [hcopied])
    obtain ⟨hregistered, hbefore⟩ := granted_before hK ho h hidle hp hgranted
    rcases hcovered.copied copy_map hcopied p hregistered hbefore with hmem | hnone
    · exact .inl hmem
    · exact .inr ((later hK ho h).gone p hregistered hnone)
  by_cases ht : t = .control
  · subst ht
    rw [after, Function.update_self] at hstop
    rcases copied_next h hstop with hcopied | ⟨-, rfl, rfl⟩
    · exact hold hcopied
    · -- the copy holds every session that is in the map
      cases hfound : w'.getSession p.sessionID with
      | none => exact .inr rfl
      | some q =>
        obtain ⟨hq, hid⟩ := hK.1.sessionMap _ q hfound
        obtain rfl := hK.1.sessionIDs q hq p hp hid
        exact .inl (mem_entries.mpr ⟨_, hfound⟩)
  · rw [after, Function.update_of_ne (Ne.symm ht)] at hstop
    exact hold hstop

theorem looped_covered (hcovered : Covered fs w)
    (hstop : (after fs t o r .control).stop = .looped) (hp : p ∈ w'.registered)
    (hgranted : Granted (after fs t o r) w' p.sessionID) : Ending (after fs t o r) w' p := by
  have hold : (fs .control).stop = .looped → Ending (after fs t o r) w' p := by
    intro hlooped
    have hidle := idle_of_stop hK (by simp [hlooped])
    obtain ⟨hregistered, hbefore⟩ := granted_before hK ho h hidle hp hgranted
    exact ending_next hK ho h hregistered (hcovered.looped hlooped p hregistered hbefore)
  by_cases ht : t = .control
  · subst ht
    have hlooped : ((fs .control).next o r).stop = .looped := by
      rwa [after, Function.update_self] at hstop
    rcases looped_next h hlooped with hlooped | ⟨copy_map, hcopied, -, rfl, howes⟩
    · exact hold hlooped
    · have hidle := idle_of_stop hK (by simp [hcopied])
      obtain ⟨-, hbefore⟩ := granted_before hK ho h hidle hp hgranted
      rcases hcovered.copied copy_map hcopied p hp hbefore with hmem | hnone
      · by_cases hempty : w'.sessionMap.entries.length = 0
        · -- the count has found the map empty, so the session was taken out
          refine ending_next hK ho h hp (hcovered.removed p hp ?_)
          cases hfound : w'.getSession p.sessionID with
          | none => rfl
          | some q =>
            have hq := mem_entries.mpr ⟨_, hfound⟩
            rw [List.eq_nil_of_length_eq_zero hempty] at hq
            cases hq
        · refine .inr ⟨.control, ?_⟩
          rw [after, Function.update_self]
          exact howes hempty p hmem
      · exact ending_next hK ho h hp (hcovered.removed p hp hnone)
  · rw [after, Function.update_of_ne (Ne.symm ht)] at hstop
    exact hold hstop

/-- What has to be closed is closed or owed behind each operation. -/
theorem covered_next (hcovered : Covered fs w) : Covered (after fs t o r) w' where
  removed := fun _ hp hgone => removed_next hK ho h hcovered hp hgone
  copied := fun _ hstop _ hp hgranted => copied_covered hK ho h hcovered hstop hp hgranted
  looped := fun hstop _ hp hgranted => looped_covered hK ho h hcovered hstop hp hgranted

end OneOperation

/-! ## Behind the loop of `stop` -/

variable (P)

/-- The server, with what `stop` leaves. -/
def covered (server : SegmentServer) (ids : Nat → UInt64) (usage : Usage) :
    Disciplined (server.system P ids) Facts :=
  (disciplined P server ids usage).strengthen (fun _ _ _ _ => True) Covered
    (fun _ _ _ _ _ _ _ hK _ h ho _ _ hsem => covered_next hK ho hsem h)

variable {P} {s s' : (server.system P ids).State}

theorem covered_allows {c : Choice} (h : freshID P s t c) :
    (covered P server ids usage).Allows s t c :=
  fun o k hk => ⟨h o k hk, trivial⟩

/-- Every state of a run whose ids differ. -/
theorem covered_run (hrun : System.Steps System.anyStep (server.started P ids usage) s)
    (hids : DistinctIDs ids s.world.handed) :
    ∃ fs, (covered P server ids usage).Holds s fs := by
  have hfresh := steps_fresh P hrun hids
  refine Disciplined.run_rule (fun _ _ _ h => covered_allows h) hfresh ⟨fun _ => Facts.nothing, ?_⟩
  obtain ⟨hK, hkeeps⟩ := started_holds P server ids usage
  exact ⟨⟨hK, nofun, nofun, nofun⟩, hkeeps⟩

/-- The thread of `stop` is behind its loop: at one of the flushes, or at its end. -/
def BehindLoop : NetProg (Option ServerLabel) → Prop
  | .pure none | .pure (some .flushMain) | .pure (some (.flushWorkers _))
  | .op .flushMainWorker _ | .op .sessionWorkersSize _ | .op (.flushSessionWorker _) _ => True
  | _ => False

theorem looped_of_behindLoop {q : NetProg (Option ServerLabel)}
    (hq : Follows (rules server usage .control) (atNext usage .control)
      (fun _ f => atEnd usage .control f) f q) (hstops : usage.stops = true)
    (hbehind : BehindLoop q) : f.stop = .looped := by
  cases q with
  | pure next =>
    cases next with
    | none => exact hq.2 hstops
    | some l =>
      cases l with
      | flushMain => exact hq.2.2
      | flushWorkers n => exact hq.2.2
      | _ => exact hbehind.elim
  | op o k =>
    cases o with
    | flushMainWorker => exact hq.1.2.2
    | sessionWorkersSize => exact hq.1.2.2
    | flushSessionWorker n => exact hq.1.2.2
    | _ => exact hbehind.elim
  | throw e => exact hbehind.elim
  | crash => exact hbehind.elim

/-- How a thread goes on or ends says that it owes nothing. -/
theorem Disciplined.Holds.follows (h : (covered P server ids usage).Holds s fs) (t : Thread) :
    Follows (rules server usage t) (atNext usage t) (fun _ f => atEnd usage t f) (fs t)
      (s.threads t) := by
  refine (h.keeps t).mono (fun next f hnext => ?_) (fun _ _ h => h)
  cases next with
  | some l => exact hnext
  | none => exact hnext

/-- A socket is ending when it is closed or a thread is on its way to close it. -/
theorem closes_of_ending (h : (covered P server ids usage).Holds s fs) {p : SessionPtr}
    (hending : Ending fs s.world p) :
    s.world.isOpen p.addr = false ∨ ∃ t, Closes p.addr (s.threads t) := by
  rcases hending with hclosed | ⟨t, ht⟩
  · exact .inl hclosed
  · exact .inr ⟨t, closes_of_owes (Disciplined.Holds.follows h t) (fun _ _ => owes_atNext)
      (fun _ _ h => h.1) ht⟩

/-! ## The readers -/

/-- A session that a reader has in hand is registered, and a worker was created for it. -/
theorem granted_of_serves {n : Nat} (hK : Knowledge ids usage fs w)
    (hp : p ∈ (fs (.reader n)).known) (hserves : Serves (fs (.reader n)) p (.reader n)) :
    p ∈ w.registered ∧ Granted fs w p.sessionID := by
  obtain ⟨m, W, -, hW, hid⟩ := (hK.2 (.reader n)).served _ hserves
  exact ⟨(hK.2 _).known p hp, .inl ⟨W, List.mem_of_getElem? hW, hid⟩⟩

/-- `stop` is behind its loop, and no session has a worker that had none in `w₀`. -/
def NoneGranted (fs₀ : Thread → Facts) (w₀ : World) (fs : Thread → Facts) (w : World) : Prop :=
  (fs .control).stop = .looped ∧ ∀ p ∈ w.registered, Granted fs w p.sessionID →
    p ∈ w₀.registered ∧ Granted fs₀ w₀ p.sessionID

/-- What is behind the loop stays there. -/
theorem looped_stays {o : Op} {r : o.Res} (ho : (rules server usage t).Allowed (fs t) o)
    (hlooped : (fs .control).stop = .looped) : (after fs t o r .control).stop = .looped := by
  by_cases ht : t = .control
  · subst ht
    rw [after, Function.update_self]
    have hmay := ho.2
    -- what would move `stop` on is done at stages in front of `looped`
    cases o with
    | setIsWork b =>
      rw [hmay.2.2.2] at hlooped
      cases hlooped
    | acceptorIsOpen =>
      rw [hmay.2] at hlooped
      cases hlooped
    | acceptorClose =>
      rw [hmay.2] at hlooped
      cases hlooped
    | mapCopy =>
      rw [hmay.2] at hlooped
      cases hlooped
    | mapSize =>
      rcases hmay with ⟨hmain, -⟩ | ⟨-, copy_map, hcopied⟩
      · cases hmain
      · rw [hcopied] at hlooped
        cases hlooped
    | isOpen a =>
      cases r with
      | true => exact hlooped
      | false => exact hlooped
    | mapGet id =>
      cases r with
      | none => exact hlooped
      | some q =>
        simp only [Facts.next]
        split
        · exact hlooped
        · exact hlooped
    | _ =>
      simp only [Facts.next]
      try split
      all_goals first | exact hlooped | (split <;> exact hlooped)
  · rw [after, Function.update_of_ne (Ne.symm ht)]
    exact hlooped

theorem noneGranted_next {fs₀ : Thread → Facts} {w₀ : World} {o : Op} {c : Choice} {r : o.Res}
    (hK : Knowledge ids usage fs w) (ho : (rules server usage t).Allowed (fs t) o)
    (h : sem ids o c w = some (r, w')) (hnone : NoneGranted fs₀ w₀ fs w) :
    NoneGranted fs₀ w₀ (after fs t o r) w' := by
  refine ⟨looped_stays ho hnone.1, fun p hp hgranted => ?_⟩
  have hidle := idle_of_stop hK (by simp [hnone.1])
  obtain ⟨hregistered, hbefore⟩ := granted_before hK ho h hidle hp hgranted
  exact hnone.2 p hregistered hbefore

/-- What has a worker later on, once `stop` is behind its loop, had one before. -/
theorem noneGranted_run (h : (covered P server ids usage).Holds s fs)
    (hlooped : (fs .control).stop = .looped) (hrun : System.Steps (freshID P) s s') :
    ∃ fs', (covered P server ids usage).Holds s' fs' ∧ NoneGranted fs s.world fs' s'.world := by
  let bounded := (covered P server ids usage).strengthen (fun _ _ _ _ => True)
    (NoneGranted fs s.world)
    (fun _ _ _ _ _ _ _ hK _ hnone ho _ _ hsem => noneGranted_next hK.1 ho hsem hnone)
  have hstart : bounded.Holds s fs :=
    ⟨⟨h.inv, hlooped, fun p hp hgranted => ⟨hp, hgranted⟩⟩, h.keeps⟩
  obtain ⟨fs', hinv, hkeeps⟩ := Disciplined.run_rule (K := bounded)
    (fun _ _ _ hfresh o k hk => ⟨covered_allows hfresh o k hk, trivial⟩) hrun ⟨fs, hstart⟩
  exact ⟨fs', ⟨hinv.1, hkeeps⟩, hinv.2⟩

/-- The thread is about to read or to write on the socket `x`. -/
def OnSocket (x : Nat) : NetProg (Option ServerLabel) → Prop
  | .op (.read a _) _ | .op (.write_some a _ _) _ => a = x
  | _ => False

/-- A reader reads and writes on the session it serves. -/
theorem serves_of_onSocket {n x : Nat} {q : NetProg (Option ServerLabel)}
    {post : Option ServerLabel → Facts → Prop} {exn : Exception → Facts → Prop}
    (hq : Follows (rules server usage (.reader n)) post exn f q) (hx : OnSocket x q) :
    ∃ p ∈ f.known, p.addr = x ∧ Serves f p (.reader n) := by
  cases q with
  | op o k =>
    cases o with
    | read a m =>
      obtain ⟨-, p, hp, ha, hserves, -⟩ := hq.1
      exact ⟨p, hp, ha.trans hx, hserves⟩
    | write_some a sent rest =>
      obtain ⟨-, p, hp, ha, hserves⟩ := hq.1
      exact ⟨p, hp, ha.trans hx, hserves⟩
    | _ => exact hx.elim
  | pure next => exact hx.elim
  | throw e => exact hx.elim
  | crash => exact hx.elim

/-- Behind the loop of `stop`, the socket that a reader uses or will ever use is closed, or
a thread is on its way to close it. -/
theorem closes_of_onSocket {n x : Nat} (h : (covered P server ids usage).Holds s fs)
    (hlooped : (fs .control).stop = .looped) (hrun : System.Steps (freshID P) s s')
    (hx : OnSocket x (s'.threads (.reader n))) :
    s.world.isOpen x = false ∨ ∃ t, Closes x (s.threads t) := by
  obtain ⟨fs', h', -, hnone⟩ := noneGranted_run h hlooped hrun
  obtain ⟨p, hp, rfl, hserves⟩ := serves_of_onSocket (Disciplined.Holds.follows h' (.reader n)) hx
  obtain ⟨hregistered', hgranted'⟩ := granted_of_serves h'.inv.1 hp hserves
  obtain ⟨hregistered, hgranted⟩ := hnone p hregistered' hgranted'
  exact closes_of_ending h (h.inv.2.looped hlooped p hregistered hgranted)

end NetworkApplication.Shutdown
