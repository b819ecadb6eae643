/-
The server comes to rest.

That a client has its answer when the server is at rest does not say that the server ever is. Here it is
left alone and takes in every client, and a call into a socket fails with an error only that the session
takes for one. Then it comes to rest whenever the network does (`comes_to_rest`), also with clients that
break off in the middle: the accept loop waits for the next client, and each worker that goes on waits
for bytes or is gone.

So every client is answered in the end, however the threads are scheduled and whatever becomes of the
other connections (`every_client_answered`).
-/
import NetworkApplication.Meters
import NetworkApplication.Paces
import Mathlib.Data.Prod.Lex

set_option autoImplicit false

namespace NetworkApplication.Rest

open NetworkApplication.Program NetworkApplication.Pool NetworkApplication.Disciplines
open SegmentServer Delivery BadPayload Replies StreamRoles StreamEnds Conversation Clients
open Echo (question)
open Registry (Facts Knowledge Consistent DistinctIDs FreshID)
open Admission (unattended)

variable {P : Platform} {server : SegmentServer} {ids : Nat → UInt64} {t : Thread} {n : Nat}
  {p : SessionPtr} {a : Nat} {g : Pace} {o : Op} {r : o.Res} {c : Choice} {w w' : World}
  {fs : Thread → Facts} {gs : Thread → Pace}

/-! ## What there is to pay with -/

/-- How far the accept loop gets by itself, which is to the next accept that is not completed. -/
def ahead (w : World) : Pace → Nat
  | .home => 2
  | .looking => 1
  | .calling a =>
    match (w.sessions a).accept with
    | .done _ => 6
    | _ => 0
  | .taken => 5
  | .placed => 4
  | _ => 0

theorem ahead_calling (w : World) (a : Nat) : ahead w (.calling a) =
    match (w.sessions a).accept with
    | .done _ => 6
    | _ => 0 := rfl

/-- What a worker has left without taking a byte. -/
def breath : Pace → Nat
  | .idle | .fresh => 3
  | .serving _ paid doomed => paid.toNat + if doomed then 0 else 2
  | _ => 0

/-- The bytes in front of the registered sessions. -/
def unread (w : World) : Nat := (w.registered.map (fun p => (w.sessions p.addr).rx.length)).sum

/-- What the workers have left. -/
def budget (gs : Thread → Pace) (w : World) : Nat :=
  2 * unread w + ∑ n ∈ Finset.range w.sessionWorkers.length, breath (gs (.reader n))

theorem unread_kept (hregistered : w'.registered = w.registered)
    (hrx : ∀ p ∈ w.registered, (w'.sessions p.addr).rx = (w.sessions p.addr).rx) :
    unread w' = unread w := by
  unfold unread
  rw [hregistered]
  exact congrArg List.sum (List.map_congr_left (fun p hp => by rw [hrx p hp]))

/-- One term of a sum goes down. -/
theorem sum_drop {β : Type} {l : List β} {x : β} {k : Nat} (f f' : β → Nat) (hx : x ∈ l)
    (hle : ∀ y, f' y ≤ f y) (hless : f' x + k ≤ f x) : (l.map f').sum + k ≤ (l.map f).sum := by
  obtain ⟨l₁, l₂, rfl⟩ := List.append_of_mem hx
  have h₁ : (l₁.map f').sum ≤ (l₁.map f).sum := List.sum_le_sum (fun y _ => hle y)
  have h₂ : (l₂.map f').sum ≤ (l₂.map f).sum := List.sum_le_sum (fun y _ => hle y)
  simp only [List.map_append, List.map_cons, List.sum_append, List.sum_cons]
  omega

/-- What is taken off a stream is not in front of the session any more. -/
theorem unread_drop {k : Nat} (hp : p ∈ w.registered) :
    unread (w.modify p.addr (fun s => { s with rx := s.rx.drop k }))
      + min k (w.sessions p.addr).rx.length ≤ unread w := by
  refine sum_drop _ (fun q => ((w.modify p.addr _).sessions q.addr).rx.length) hp (fun q => ?_) ?_
  · by_cases hq : q.addr = p.addr
    · rw [hq, World.modify_sessions_self, List.length_drop]
      exact Nat.sub_le _ _
    · rw [World.modify_sessions_of_ne w hq]
  · rw [World.modify_sessions_self, List.length_drop]
    omega

/-- A read takes off as many bytes as it returns. -/
theorem unread_read {k : Nat} {r : (Op.read p.addr k).Res} (hp : p ∈ w.registered)
    (hsem : sem ids (.read p.addr k) c w = some (r, w')) :
    unread w' ≤ unread w ∧ ∀ bytes, r = .ok bytes → unread w' + k ≤ unread w := by
  have hread : readSem p.addr k c w = some (r, w') := hsem
  cases c with
  | ok m =>
    simp only [readSem, Option.ite_none_right_eq_some, Option.some.injEq, Prod.mk.injEq] at hread
    obtain ⟨hk, rfl, rfl⟩ := hread
    have hdrop := unread_drop (k := k) hp
    exact ⟨by omega, fun _ _ => by omega⟩
  | fail ec m =>
    simp only [readSem, Option.ite_none_right_eq_some, Option.some.injEq, Prod.mk.injEq] at hread
    obtain ⟨-, rfl, rfl⟩ := hread
    have hdrop := unread_drop (k := m) hp
    exact ⟨by omega, fun bytes hbytes => by cases hbytes⟩
  | _ => cases hread

/-- A worker makes no session, and opens no socket. -/
theorem not_may_worker (hmay : May (.reader n) g o) : o ≠ .network ∧ (∀ a, o ≠ .connect a) ∧
    (∀ id, o ≠ .makeSession id) ∧ ∀ a, o ≠ .async_accept a := by
  refine ⟨?_, fun a => ?_, fun id => ?_, fun a => ?_⟩
  all_goals
    rintro rfl
    cases g with
    | serving => exact hmay.1
    | _ => exact hmay

/-- No operation of a worker touches the accept on a session. -/
theorem accept_kept (hmay : May (.reader n) g o) (hsem : sem ids o c w = some (r, w')) (b : Nat) :
    (w'.sessions b).accept = (w.sessions b).accept := by
  obtain ⟨hnetwork, hconnect, hmake, hstart⟩ := not_may_worker hmay
  refine field_kept SessionObject.accept (fun id ho => absurd ho (hmake id)) hsem ?_
  cases o with
  | network => exact absurd rfl hnetwork
  | connect a => exact absurd rfl (hconnect a)
  | async_accept a => exact absurd rfl (hstart a)
  | read | write_some | close | setCriticalError => exact fun _ _ => by intros; rfl
  | _ => trivial

/-- Nor one but a read the bytes in front of it. -/
theorem rx_kept (hmay : May (.reader n) g o) (ho : ∀ a k, o ≠ .read a k)
    (hsem : sem ids o c w = some (r, w')) (b : Nat) : (w'.sessions b).rx = (w.sessions b).rx := by
  obtain ⟨hnetwork, hconnect, hmake, -⟩ := not_may_worker hmay
  refine field_kept SessionObject.rx (fun id ho => absurd ho (hmake id)) hsem ?_
  cases o with
  | network => exact absurd rfl hnetwork
  | connect a => exact absurd rfl (hconnect a)
  | read a k => exact absurd rfl (ho a k)
  | write_some | close | setCriticalError => exact fun _ _ => by intros; rfl
  | async_accept => exact fun _ => rfl
  | _ => trivial

/-! ## What a step costs -/

/-- The thread opens a round. -/
def Opens (o : Op) : Prop := o = .getIsWork

/-- **The accept loop** gets on, or has not paid and leaves the workers as they are. -/
theorem main_burns (hw : Consistent ids w) (hmay : May .main g o) (hsem : sem ids o c w = some (r, w')) :
    ahead w' (Pace.next .main g o r) < ahead w g ∨
      ahead w' (Pace.next .main g o r) = ahead w g ∧ unread w' = unread w ∧
      w'.sessionWorkers = w.sessionWorkers ∧ ((Pace.next .main g o r).paid = true ↔ g.paid = true) ∧
      ¬ (g.paid = true ∧ Opens o) := by
  have heffect := effect_of_sem hsem
  cases g with
  | home =>
    cases o with
    | getIsWork => exact .inl (Nat.lt_succ_self 1)
    | _ => exact hmay.elim
  | looking =>
    cases o with
    | distributeID => exact .inl Nat.one_pos
    | _ => exact hmay.elim
  | drawn =>
    cases o with
    | mapFind id =>
      obtain rfl : w' = w := heffect
      exact .inr ⟨rfl, rfl, rfl, Iff.rfl, fun h => Bool.noConfusion h.1⟩
    | makeSession id =>
      obtain rfl := heffect
      refine .inr ⟨rfl, unread_kept rfl (fun p hp => ?_), rfl, Iff.rfl, fun h => Bool.noConfusion h.1⟩
      show ((w.modify w.allocated (fun _ => .new)).sessions p.addr).rx = _
      rw [World.modify_sessions_of_ne w (Nat.ne_of_lt (hw.allocated p hp))]
    | async_accept a =>
      obtain rfl := heffect
      refine .inr ⟨?_, unread_kept rfl (fun p _ => ?_), rfl, Iff.rfl, fun h => Bool.noConfusion h.1⟩
      · show ahead _ (.calling a) = 0
        rw [ahead_calling, World.modify_sessions_self]
      · by_cases hp : p.addr = a
        · rw [hp, World.modify_sessions_self]
        · rw [World.modify_sessions_of_ne w hp]
    | _ => exact hmay.elim
  | calling a =>
    cases o with
    | acceptResult b =>
      obtain rfl : b = a := hmay
      cases hdone : (w.sessions b).accept with
      | done ec =>
        left
        rw [ahead_calling, hdone]
        exact Nat.lt_succ_self 5
      | _ => simp [sem, hdone] at hsem
    | _ => exact hmay.elim
  | taken =>
    cases o with
    | mapFind id | getIsWork =>
      obtain rfl : w' = w := heffect
      exact .inr ⟨rfl, rfl, rfl, Iff.rfl, fun h => Bool.noConfusion h.1⟩
    | mapInsert id p => exact .inl (Nat.lt_succ_self 4)
    | addSessionWorker ID =>
      left
      show 2 < 5
      omega
    | _ => exact hmay.elim
  | placed =>
    cases o with
    | getIsWork =>
      obtain rfl : w' = w := heffect
      exact .inr ⟨rfl, rfl, rfl, Iff.rfl, fun h => Bool.noConfusion h.1⟩
    | addSessionWorker ID =>
      left
      show 2 < 4
      omega
    | _ => exact hmay.elim
  | _ => exact hmay.elim

/-- The worker that goes on from `g` to `g'` has less left, or has as much left and opens no round that it
has paid for. -/
def Costs (o : Op) (w w' : World) (g g' : Pace) : Prop :=
  2 * unread w' + breath g' < 2 * unread w + breath g ∨
    2 * unread w' + breath g' = 2 * unread w + breath g ∧ (g'.paid = true ↔ g.paid = true) ∧
    ¬ (g.paid = true ∧ Opens o)

theorem costs_of_le (hle : unread w' ≤ unread w) (ho : ¬ (g.paid = true ∧ Opens o)) : Costs o w w' g g := by
  rcases Nat.lt_or_eq_of_le hle with hless | heq
  · exact .inl (by omega)
  · exact .inr ⟨by omega, Iff.rfl, ho⟩

/-- Who learns of the error flag or sets it has paid, and has one round left. -/
theorem costs_doomed {paid doomed : Bool} (h : doomed = true → paid = true) (hsame : unread w' = unread w)
    (ho : ¬ Opens o) : Costs o w w' (.serving a paid doomed) (.serving a true true) := by
  rw [Costs, hsame]
  cases doomed with
  | true =>
    obtain rfl : paid = true := h rfl
    exact .inr ⟨rfl, Iff.rfl, fun h => ho h.2⟩
  | false =>
    left
    show 2 * unread w + 1 < 2 * unread w + (paid.toNat + 2)
    omega

/-- **A worker** has less left with every step, or opens no round. -/
theorem reader_burns (hpaced : Paced gs w) (hg : gs (.reader n) = g) (hmay : May (.reader n) g o)
    (hregistered : w'.registered = w.registered) (hsem : sem ids o c w = some (r, w')) :
    Costs o w w' g (Pace.next (.reader n) g o r) := by
  have hunread : (∀ a k, o ≠ .read a k) → unread w' = unread w :=
    fun ho => unread_kept hregistered (fun p _ => rx_kept hmay ho hsem p.addr)
  cases g with
  | idle =>
    cases o with
    | takeTask m =>
      refine .inr ⟨?_, Iff.rfl, fun h => Op.noConfusion h.2⟩
      rw [hunread (fun _ _ h => Op.noConfusion h)]
      rfl
    | _ => exact hmay.elim
  | fresh =>
    cases o with
    | mapGet id =>
      have hsame := hunread (fun _ _ h => Op.noConfusion h)
      cases r with
      | none => exact costs_of_le (Nat.le_of_eq hsame) (fun h => Op.noConfusion h.2)
      | some ptr =>
        refine .inr ⟨?_, Iff.rfl, fun h => Op.noConfusion h.2⟩
        rw [hsame]
        rfl
    | sessionTaskDone m =>
      exact costs_of_le (Nat.le_of_eq (hunread (fun _ _ h => Op.noConfusion h))) (fun h => Op.noConfusion h.2)
    | _ => exact hmay.elim
  | serving a paid doomed =>
    obtain ⟨⟨p, hp, rfl⟩, -⟩ := hpaced.serving n a paid doomed hg
    cases o with
    | isOpen b =>
      have hsame := hunread (fun _ _ h => Op.noConfusion h)
      cases r with
      | true => exact costs_of_le (Nat.le_of_eq hsame) (fun h => Op.noConfusion h.2)
      | false =>
        obtain ⟨rfl, hboth⟩ := hmay
        exact costs_doomed hboth hsame (fun h => Op.noConfusion h)
    | setCriticalError b =>
      have hsame := hunread (fun _ _ h => Op.noConfusion h)
      obtain ⟨rfl, hboth⟩ := hmay
      exact costs_doomed hboth hsame (fun h => Op.noConfusion h)
    | getIsWork =>
      have hsame := hunread (fun _ _ h => Op.noConfusion h)
      cases paid with
      | true =>
        left
        show 2 * unread w' + (0 + _) < 2 * unread w + (1 + _)
        omega
      | false => exact costs_of_le (Nat.le_of_eq hsame) (fun h => Bool.noConfusion h.1)
    | read b k =>
      obtain ⟨rfl, hboth⟩ := hmay
      obtain ⟨hle, htaken⟩ := unread_read hp hsem
      cases r with
      | error ec => exact costs_of_le hle (fun h => Op.noConfusion h.2)
      | ok bytes =>
        have htaken := htaken bytes rfl
        by_cases hk : k = 0
        · -- nothing is asked for, and nothing is taken
          subst hk
          have hsame : Pace.next (.reader n) (.serving p.addr paid doomed) (.read p.addr 0) (.ok bytes)
              = .serving p.addr paid doomed := congrArg (Pace.serving p.addr · doomed) (Bool.or_false paid)
          rw [hsame]
          exact costs_of_le hle (fun h => Op.noConfusion h.2)
        · left
          have hpaid : (paid || k != 0).toNat ≤ 1 := Bool.toNat_le _
          show 2 * unread w' + ((paid || k != 0).toNat + _) < 2 * unread w + (paid.toNat + _)
          omega
    | _ =>
      exact costs_of_le (Nat.le_of_eq (hunread (fun _ _ h => Op.noConfusion h))) (fun h => Op.noConfusion h.2)
  | _ => exact hmay.elim

/-- The accept loop, and the workers that have been created. -/
def active (w : World) : Finset Thread :=
  insert .main ((Finset.range w.sessionWorkers.length).map ⟨Thread.reader, fun _ _ h => Thread.reader.inj h⟩)

theorem main_mem_active (w : World) : Thread.main ∈ active w := Finset.mem_insert_self _ _

theorem reader_mem_active (hn : n < w.sessionWorkers.length) : Thread.reader n ∈ active w :=
  Finset.mem_insert_of_mem (Finset.mem_map_of_mem _ (Finset.mem_range.mpr hn))

/-- The clients that can still be let in count before what the workers have left. -/
def fuel (gs : Thread → Pace) (w : World) : ℕ ×ₗ ℕ := toLex (ahead w (gs .main), budget gs w)

/-- One term of a sum is another. -/
theorem sum_changed {A : Finset Nat} (f f' : Nat → Nat) (hn : n ∈ A) (hother : ∀ m ≠ n, f' m = f m) :
    ∑ m ∈ A, f' m + f n = ∑ m ∈ A, f m + f' n := by
  have hrest : ∑ m ∈ A.erase n, f' m = ∑ m ∈ A.erase n, f m :=
    Finset.sum_congr rfl (fun m hm => hother m (Finset.ne_of_mem_erase hm))
  have h' := Finset.add_sum_erase A f' hn
  have h := Finset.add_sum_erase A f hn
  omega

theorem ahead_kept (hmay : May (.reader n) g o) (hsem : sem ids o c w = some (r, w')) (g' : Pace) :
    ahead w' g' = ahead w g' := by
  cases g' with
  | calling a => rw [ahead_calling, ahead_calling, accept_kept hmay hsem]
  | _ => rfl

/-- A worker that moves has been created. -/
theorem Paced.created (h : Paced gs w) (hmay : May (.reader n) (gs (.reader n)) o)
    (hsem : sem ids o c w = some (r, w')) : n < w.sessionWorkers.length := by
  by_cases hidle : gs (.reader n) = .idle
  · rw [hidle] at hmay
    cases o with
    | takeTask m =>
      obtain rfl : m = n := hmay
      by_contra hge
      simp [sem, List.getElem?_eq_none (Nat.le_of_not_lt hge)] at hsem
    | _ => exact hmay.elim
  · exact h.began n hidle

/-- **Every operation** burns fuel, or takes a thread on that opens no round it has paid for. -/
theorem burns (hK : Knowledge ids unattended fs w) (h : Paced gs w)
    (hallowed : (Registry.rules server unattended t).Allowed (fs t) o) (hmay : May t (gs t) o)
    (ht : t ≠ .network) (hsem : sem ids o c w = some (r, w')) :
    fuel (Function.update gs t (Pace.next t (gs t) o r)) w' < fuel gs w ∨
      fuel (Function.update gs t (Pace.next t (gs t) o r)) w' = fuel gs w ∧ active w' = active w ∧
      t ∈ active w ∧ ((Pace.next t (gs t) o r).paid = true ↔ (gs t).paid = true) ∧
      ¬ ((gs t).paid = true ∧ Opens o) := by
  cases t with
  | main =>
    have hreader : ∀ m, Function.update gs .main (Pace.next .main (gs .main) o r) (.reader m)
        = gs (.reader m) := fun m => Function.update_of_ne (fun h => Thread.noConfusion h) _ _
    rcases main_burns hK.1 hmay hsem with hless | ⟨hahead, hunread, hworkers, hpaid, hopens⟩
    · left
      rw [fuel, fuel, Prod.Lex.toLex_lt_toLex, Function.update_self]
      exact .inl hless
    · refine .inr ⟨?_, ?_, main_mem_active w, hpaid, hopens⟩
      · unfold fuel budget
        rw [Function.update_self, hahead, hunread, hworkers]
        simp only [hreader]
      · rw [active, active, hworkers]
  | reader n =>
    have hundisturbed := (Registry.moves hK.1 (hK.2 _) hallowed hsem).2.main (fun h => Thread.noConfusion h)
    have hworkers := hundisturbed.sessionWorkers
    have hn := h.created hmay hsem
    have hmain : Function.update gs (.reader n) (Pace.next (.reader n) (gs (.reader n)) o r) .main
        = gs .main := Function.update_of_ne (fun h => Thread.noConfusion h) _ _
    have hsum : budget (Function.update gs (.reader n) (Pace.next (.reader n) (gs (.reader n)) o r)) w'
        + (2 * unread w + breath (gs (.reader n)))
        = budget gs w + (2 * unread w' + breath (Pace.next (.reader n) (gs (.reader n)) o r)) := by
      have hchanged := sum_changed (fun m => breath (gs (.reader m)))
        (fun m => breath (Function.update gs (.reader n)
          (Pace.next (.reader n) (gs (.reader n)) o r) (.reader m)))
        (Finset.mem_range.mpr hn) (fun m hm => by
          rw [Function.update_of_ne (fun h => hm (Thread.reader.inj h))])
      rw [Function.update_self] at hchanged
      rw [budget, budget, hworkers]
      omega
    rw [fuel, fuel, hmain, ahead_kept hmay hsem, Prod.Lex.toLex_lt_toLex]
    rcases reader_burns h rfl hmay hundisturbed.registered hsem with hless | ⟨heq, hpaid, hopens⟩
    · exact .inl (.inr ⟨rfl, by dsimp only; omega⟩)
    · refine .inr ⟨congrArg (fun b => toLex (ahead w (gs .main), b)) (by omega), ?_, reader_mem_active hn,
        hpaid, hopens⟩
      rw [active, active, hworkers]
  | network => exact absurd rfl ht
  | control | user m => exact hmay.elim

/-- Only the accept loop draws an id. -/
theorem looking_of_distributeID (hmay : May t g .distributeID) : t = .main ∧ g = .looking := by
  cases t with
  | main =>
    cases g with
    | looking => exact ⟨rfl, rfl⟩
    | _ => exact hmay.elim
  | reader n =>
    cases g with
    | serving a paid doomed => exact hmay.1.elim
    | _ => exact hmay.elim
  | _ => exact hmay.elim

/-- The ids differ that have been handed out, and the one that the accept loop will draw by itself. -/
def Spare (ids : Nat → UInt64) (gs : Thread → Pace) (w : World) : Prop :=
  DistinctIDs ids (w.handed + min 1 (ahead w (gs .main)))

theorem handed_next (hsem : sem ids o c w = some (r, w')) : w'.handed = w.handed ∨ o = .distributeID := by
  have heffect := effect_of_sem hsem
  cases o with
  | distributeID => exact .inr rfl
  | connect a =>
    rcases heffect with rfl | ⟨rx, tx, rfl⟩
    · exact .inl rfl
    · exact .inl rfl
  | read a k =>
    obtain ⟨rx, rfl⟩ := heffect
    exact .inl rfl
  | write_some a sent rest =>
    obtain ⟨tx, rfl⟩ := heffect
    exact .inl rfl
  | network =>
    rcases heffect with ⟨a, ec, -, -, rfl⟩ | ⟨a, rx, rfl⟩
    · exact .inl rfl
    · exact .inl rfl
  | _ =>
    obtain rfl := heffect
    exact .inl rfl

theorem Spare.next (hK : Knowledge ids unattended fs w) (h : Spare ids gs w) (hmay : May t (gs t) o)
    (ht : t ≠ .network) (hsem : sem ids o c w = some (r, w')) :
    Spare ids (Function.update gs t (Pace.next t (gs t) o r)) w' := by
  refine DistinctIDs.mono h ?_
  rcases handed_next hsem with hhanded | rfl
  · rw [hhanded]
    refine Nat.add_le_add_left (min_le_min_left 1 ?_) _
    cases t with
    | main =>
      rw [Function.update_self]
      rcases main_burns hK.1 hmay hsem with hless | ⟨hsame, -⟩
      · exact Nat.le_of_lt hless
      · exact Nat.le_of_eq hsame
    | reader n =>
      rw [Function.update_of_ne (fun h => Thread.noConfusion h), ahead_kept hmay hsem]
    | network => exact absurd rfl ht
    | control | user m => exact hmay.elim
  · -- the id is the one that was kept for it
    obtain ⟨rfl, hlooking⟩ := looking_of_distributeID hmay
    obtain rfl : w' = { w with handed := w.handed + 1 } := effect_of_sem hsem
    rw [Function.update_self, hlooking]
    exact Nat.le_refl (w.handed + 1)

/-- The id that is drawn is new. -/
theorem Spare.fresh (h : Spare ids gs w) (hmay : May t (gs t) o) : FreshID ids w o := by
  unfold FreshID
  split
  · obtain ⟨rfl, hlooking⟩ := looking_of_distributeID hmay
    rw [Spare, hlooking] at h
    exact fun i hi => h i w.handed hi (Nat.lt_succ_self _)
  · trivial

/-- A round begins with a look at the flag. -/
theorem opens_block {l : ServerLabel} (ht : t ≠ .network) (hl : atLabel t g l) :
    ∃ o k, server.block P l = .op o k ∧ Opens o := by
  cases t with
  | main =>
    cases l with
    | acceptLoop => exact ⟨_, _, rfl, rfl⟩
    | _ => exact hl.elim
  | reader n =>
    cases l with
    | sessionWork m ptr => exact ⟨_, _, rfl, rfl⟩
    | _ => exact hl.elim
  | network => exact absurd rfl ht
  | control | user m => exact hl.elim

/-- Who begins one has paid for it. -/
theorem Paced.pays (h : Paced gs w) {l : ServerLabel} (ht : t ≠ .network) (hl : atLabel t (gs t) l) :
    (gs t).paid = true ∧ t ∈ active w := by
  cases t with
  | main =>
    cases l with
    | acceptLoop =>
      have hhome : gs .main = .home := hl
      rw [hhome]
      exact ⟨rfl, main_mem_active w⟩
    | _ => exact hl.elim
  | reader n =>
    cases l with
    | sessionWork m ptr =>
      obtain ⟨-, doomed, hserving⟩ := hl
      refine ⟨by rw [hserving]; rfl, reader_mem_active (h.began n ?_)⟩
      rw [hserving]
      exact fun h => Pace.noConfusion h
    | _ => exact hl.elim
  | network => exact absurd rfl ht
  | control | user m => exact hl.elim

section

variable (P server ids)

/-- The meter of a server that takes in every client and is left alone, by the network too. -/
def meter (hmulti : server.multiConnect = true) :
    Meter (pacing P server ids hmulti).together (ℕ ×ₗ ℕ) where
  counts := fun t c => t ≠ .network ∧ Cuts c
  inv := fun fs w => Spare ids (fun t => (fs t).2) w
  fuel := fun fs w => fuel (fun t => (fs t).2) w
  paid := fun _ f => f.2.paid = true
  active := active
  Opens := Opens
  opens := fun _ _ _ _ hc hl => opens_block hc.1 hl.2
  jumps := fun _ _ _ _ _ hK hc hl => hK.2.pays hc.1 hl.2
  admits := fun _ _ _ _ _ _ _ _ h hallowed hc _ => ⟨h.fresh hallowed.2, hc.2⟩
  keeps := by
    intro fs t o c r w w' hK h hallowed hc hsem
    rw [(Companion.update_both fs t _).2]
    exact h.next hK.1 hallowed.2 hc.1 hsem
  burns := by
    intro fs t o c r w w' hK hallowed _ hc hsem
    rw [(Companion.update_both fs t _).2]
    exact burns hK.1 hK.2 hallowed.1 hallowed.2 hc.1 hsem

end

/-! ## Rest -/

/-- The server takes a step by itself, and if a call into a socket fails in it, then with an error that
the session takes for one. -/
def Own (s s' : (server.system P ids).State) : Prop :=
  System.Step (S := server.system P ids) (fun _ t c => t ≠ .network ∧ Cuts c) s s'

variable {s : (server.system P ids).State}

theorem paced_run (hmulti : server.multiConnect = true)
    (hrun : System.Steps (fun _ _ c => Cuts c) (server.started P ids unattended) s)
    (hids : DistinctIDs ids (s.world.handed + 1)) : ∃ fs, (pacing P server ids hmulti).together.Holds s fs ∧
      Spare ids (fun t => (fs t).2) s.world := by
  obtain ⟨fs, hfs⟩ := Disciplined.run_rule (K := (pacing P server ids hmulti).together)
    (fun s t c hok o k hk => ⟨hok.1 o k hk, hok.2⟩)
    (Registry.steps_fresh_and P hrun (hids.mono (Nat.le_succ _))) ⟨_, pacing_started P server ids hmulti⟩
  exact ⟨fs, hfs, hids.mono (Nat.add_le_add_left (Nat.min_le_left _ _) _)⟩

/-- **The server comes to rest.** It takes in every client and is left alone, and calls into its sockets
fail with errors only that the session takes for errors. Then there is no infinite sequence of steps of
its own from any state of a run, in whatever order the threads take turns and however many connections
break. -/
theorem comes_to_rest (P : Platform) (server : SegmentServer) (ids : Nat → UInt64)
    (hmulti : server.multiConnect = true) {s : (server.system P ids).State}
    (hrun : System.Steps (fun _ _ c => Cuts c) (server.started P ids unattended) s)
    (hids : DistinctIDs ids (s.world.handed + 1)) : Acc (fun s₂ s₁ => Own s₁ s₂) s := by
  obtain ⟨fs, hfs, hspare⟩ := paced_run hmulti hrun hids
  exact (meter P server ids hmulti).acc_own hfs hspare

/-- Two clients come. The first asks, and the second breaks off within a header. -/
def twoClients : List (Thread × Choice) :=
  comes 0 ++ comes 1 ++ brings 0 (frame 7 question) ++ brings 1 [7, 0, 0, 0]

/-- Both workers have yet to begin. -/
theorem two_clients_rest : ∃ s, System.exec (openServer.started jsonPlatform UInt64.ofNat unattended)
      twoClients = some s ∧ (s.world.sessions 0).rx.length = 46 ∧
    Acc (fun s₂ s₁ : (openServer.system jsonPlatform UInt64.ofNat).State => Own s₁ s₂) s := by
  let start := openServer.started jsonPlatform UInt64.ofNat unattended
  have hended : (System.exec start twoClients).map
      (fun s => (s.world.handed, (s.world.sessions 0).rx.length)) = some (2, 46) := by decide +kernel
  obtain ⟨s, hexec, hs⟩ := Option.map_eq_some_iff.mp hended
  obtain ⟨hhanded, hrx⟩ := Prod.mk.inj hs
  have hbare : ∀ step ∈ twoClients, isBare step.2 = true := by decide
  have hrun : System.Steps (S := openServer.system jsonPlatform UInt64.ofNat) (fun _ _ c => Cuts c) start s :=
    System.steps_of_exec hexec (fun _ step hstep => (bare_of_isBare (hbare step hstep)).1)
  refine ⟨s, hexec, hrx, comes_to_rest jsonPlatform openServer UInt64.ofNat rfl hrun ?_⟩
  rw [hhanded]
  exact Admission.distinctIDs_three

/-! ## A client that has sent what it wants to -/

section

variable {hread : server.readHandler = true} {hmulti : server.multiConnect = true}
  {texts : List (List UInt8)} {htexts : ∀ text ∈ texts, Handled P text}

variable (P server ids p) in
/-- The client is registered and looked after, and its texts have come in. -/
def Sent (hread : server.readHandler = true) (hmulti : server.multiConnect = true)
    {texts : List (List UInt8)} (htexts : ∀ text ∈ texts, Handled P text)
    (s : (server.system P ids).State) : Prop :=
  p ∈ s.world.registered ∧
    (∃ fs, (pacing P server ids hmulti).together.Holds s fs ∧ Spare ids (fun t => (fs t).2) s.world) ∧
    ∃ fs stream, (tending P server ids hread hmulti p.addr htexts).Holds (Histories.with_ note s stream) fs ∧
      stream p.addr = framed server.magicNumber texts

/-- The steps that spare it. -/
def Spared (a : Nat) (s : (server.system P ids).State) (t : Thread) (c : Choice) : Prop :=
  t ≠ .network ∧ Bare c ∧ sparing a s t c

/-- **Step lemma.** -/
theorem Sent.next {s' : (server.system P ids).State} (h : Sent P server ids p hread hmulti htexts s)
    (hstep : System.Step (Spared p.addr) s s') : Sent P server ids p hread hmulti htexts s' := by
  obtain ⟨hp, ⟨fs, hpaced, hspare⟩, gs, stream, htended, hbrought⟩ := h
  obtain ⟨t, c, ⟨ht, hbare, hspares⟩, hs⟩ := hstep
  obtain ⟨fs', hpaced', hspare', -⟩ := Meter.step (M := meter P server ids hmulti) hpaced hspare
    ⟨t, c, ⟨ht, hbare.1⟩, hs⟩
  have hspare' : Spare ids (fun t => (fs' t).2) s'.world := hspare'
  have hfresh : Registry.freshID P s t c :=
    Registry.freshID_of_step P hs (DistinctIDs.mono hspare' (Nat.le_add_right _ _))
  obtain ⟨f, htended'⟩ := Disciplined.step_rule htended
    (fun o k hk => ⟨⟨⟨hfresh o k hk, hbare⟩, trivial⟩, hspares o k hk⟩) (Histories.step_recorded hs stream)
  -- the client is still registered, and nothing has come in
  have hsame : p ∈ s'.world.registered ∧ Histories.noted note s t c stream = stream := by
    have hkeeps := hpaced.keeps t
    unfold Histories.noted
    rcases System.step_cases hs with ⟨l, hl, rfl⟩ | ⟨o, k, r, w, hk, hsem, rfl⟩
    · rw [hl]
      exact ⟨hp, rfl⟩
    · rw [hk] at hkeeps ⊢
      obtain ⟨hallowed, hmay⟩ := hkeeps.1
      refine ⟨(Registry.moves hpaced.inv.1.1 (hpaced.inv.1.2 t) hallowed hsem).2.later.registered p hp, ?_⟩
      show note t o c s.world stream = stream
      unfold note
      split
      · exact absurd ((may_connect hmay).2 rfl) ht
      · rfl
  refine ⟨hsame.1, ⟨fs', hpaced', hspare'⟩, Function.update gs t f, stream, ?_, hbrought⟩
  rw [hsame.2] at htended'
  exact htended'

/-- **Run lemma.** A server whose client has sent what it wants to comes to rest. -/
theorem Sent.rests {run : ℕ → (server.system P ids).State}
    (h : Sent P server ids p hread hmulti htexts (run 0))
    (hrun : ∀ k, (AtRest (run k) ∧ run (k + 1) = run k) ∨ System.Step (Spared p.addr) (run k) (run (k + 1))) :
    ∃ k, AtRest (run k) ∧ Sent P server ids p hread hmulti htexts (run k) := by
  have hsent : ∀ k, Sent P server ids p hread hmulti htexts (run k) := by
    intro k
    induction k with
    | zero => exact h
    | succ k ih =>
      rcases hrun k with ⟨-, hsame⟩ | hstep
      · rw [hsame]
        exact ih
      · exact ih.next hstep
  obtain ⟨-, ⟨fs, hpaced, hspare⟩, -⟩ := h
  have hacc := (meter P server ids hmulti).acc_own hpaced hspare
  obtain ⟨k, hrest⟩ := rests_of_acc AtRest hacc (fun k => by
    rcases hrun k with ⟨hrest, -⟩ | ⟨t, c, ⟨ht, hbare, -⟩, hs⟩
    · exact .inl hrest
    · exact .inr ⟨t, c, ⟨ht, hbare.1⟩, hs⟩)
  exact ⟨k, hrest, hsent k⟩

end

/-- **Every client is answered in the end.** The server takes in every client and is left alone. From a
client on whose connection no call fails whole texts have come that a session can go on from. However the
threads take turns from there on, and whatever becomes of the other connections: if the server stops only
at rest, it gets to a state in which the client has been answered in full. The user has got every payload
that parses, and every one that wants an answer has its own. -/
theorem every_client_answered (P : Platform) (server : SegmentServer) (ids : Nat → UInt64)
    (hread : server.readHandler = true) (hmulti : server.multiConnect = true)
    {s : (server.system P ids).State} {sched : List (Thread × Choice)}
    (hexec : System.exec (server.started P ids unattended) sched = some s)
    (hids : DistinctIDs ids (s.world.handed + 1)) (hsched : ∀ step ∈ sched, Bare step.2)
    (hp : p ∈ s.world.registered)
    (hspares : System.Along (sparing p.addr) (server.started P ids unattended) sched)
    {texts : List (List UInt8)} (htexts : ∀ text ∈ texts, Handled P text)
    (hbrought : brought P server ids (server.started P ids unattended) sched p.addr
      = framed server.magicNumber texts)
    {run : ℕ → (server.system P ids).State} (hstart : run 0 = s)
    (hrun : ∀ k, (AtRest (run k) ∧ run (k + 1) = run k) ∨
      System.Step (Spared p.addr) (run k) (run (k + 1))) :
    ∃ k, AtRest (run k) ∧ ∃ answers,
      ((run k).world.sessions p.addr).tx = framed server.magicNumber answers ∧
      Exchange.Served (service P texts) (texts.filter (parses P)) answers ∧
      (texts.filter (parses P)).Sublist (handedOf (run k).world) := by
  subst hstart
  have hids' := hids.mono (Nat.le_succ _)
  have hcuts : System.Steps (S := server.system P ids) (fun _ _ c => Cuts c) _ (run 0) :=
    System.steps_of_exec hexec (fun _ step hstep => (hsched step hstep).1)
  obtain ⟨fs, htended⟩ := tended_run hread hmulti hexec hids' hsched hspares htexts
  have hsent : Sent P server ids p hread hmulti htexts (run 0) :=
    ⟨hp, paced_run hmulti hcuts hids, fs, _, htended, hbrought⟩
  obtain ⟨k, hrest, hp', -, gs, stream, htended', hstream⟩ := hsent.rests hrun
  exact ⟨k, hrest, answered_at_rest htended' hrest hstream hp' rfl⟩

/-- The worker of the first answers, and that of the second goes. -/
def workersFinish : List (Thread × Choice) :=
  goes 1 ++ goes 0 ++ reads 0 ++ [(.reader 0, .int 6), (.reader 0, .ok 5), (.reader 0, .ok 56)]
    ++ goes 1 ++ [(.reader 1, .fail .eof 0)] ++ List.replicate 10 (.reader 1, .code .success)
    ++ List.replicate 4 (.reader 0, .go) ++ mainSteps 6

/-- The step is one that spares the session at `a`. -/
def isSpared (a : Nat) (s : (server.system P ids).State) (t : Thread) (c : Choice) : Bool :=
  t != .network && isBare c && isSparing a s t c

theorem spared_of_isSpared (h : isSpared a s t c = true) : Spared a s t c := by
  rw [isSpared, Bool.and_eq_true, Bool.and_eq_true, bne_iff_ne] at h
  exact ⟨h.1.1, bare_of_isBare h.1.2, sparing_of_isSparing h.2⟩

/-- The client has its answer although its neighbour breaks off. -/
theorem client_answered_in_the_end : ∃ s, System.exec
      (openServer.started jsonPlatform UInt64.ofNat unattended) twoClients = some s ∧
    ∃ run : ℕ → (openServer.system jsonPlatform UInt64.ofNat).State, run 0 = s ∧
      ∃ k, AtRest (run k) ∧ ∃ answers, ((run k).world.sessions 0).tx = framed 7 answers ∧
        Exchange.Served (service jsonPlatform [question]) ([question].filter (parses jsonPlatform)) answers ∧
        ([question].filter (parses jsonPlatform)).Sublist (handedOf (run k).world) := by
  let start := openServer.started jsonPlatform UInt64.ofNat unattended
  have hended : (System.exec start twoClients).map (fun s => ((s.world.handed, s.world.registered),
      System.checks (isSpared 0) s workersFinish, (System.exec s workersFinish).map (fun s' =>
        isWaiting s'.world (s'.threads .main) && isWaiting s'.world (s'.threads (.reader 0)) &&
          isWaiting s'.world (s'.threads (.reader 1)) && s'.world.sessionWorkers.length == 2)))
      = some ((2, [⟨0, 0⟩, ⟨1, 1⟩]), true, some true) := by decide +kernel
  obtain ⟨s, hexec, hs⟩ := Option.map_eq_some_iff.mp hended
  obtain ⟨hs, hchecks, hfinished⟩ := by simpa only [Prod.mk.injEq] using hs
  obtain ⟨s', hexec', hs'⟩ := Option.map_eq_some_iff.mp hfinished
  simp only [Bool.and_eq_true, beq_iff_eq] at hs'
  obtain ⟨⟨⟨hmain, hfirst⟩, hsecond⟩, hworkers⟩ := hs'
  have hmovers : ∀ step ∈ twoClients ++ workersFinish,
      step.1 ∈ [Thread.main, .network, .reader 0, .reader 1] := by decide
  have hrest : AtRest s' := by
    refine atRest_of_isWaiting (fun t ht => ?_) hmain hfirst hsecond hworkers
    have hidle : ∀ step ∈ twoClients ++ workersFinish, t ≠ step.1 := by
      rintro step hstep rfl
      exact ht (hmovers step hstep)
    rw [System.exec_other hexec' (fun step hstep => hidle step (List.mem_append_right _ hstep)),
      System.exec_other hexec (fun step hstep => hidle step (List.mem_append_left _ hstep))]
  obtain ⟨run, hstart, hrun⟩ := System.run_of_exec hexec'
    (System.along_of_checks (fun _ _ _ => spared_of_isSpared) hchecks)
  have hbare : ∀ step ∈ twoClients, isBare step.2 = true := by decide
  have hids : DistinctIDs UInt64.ofNat (s.world.handed + 1) := by
    rw [hs.1]
    exact Admission.distinctIDs_three
  have hp : (⟨0, 0⟩ : SessionPtr) ∈ s.world.registered := by
    rw [hs.2]
    exact List.mem_cons_self ..
  have hspares : System.Along (sparing 0) start twoClients :=
    System.along_of_checks (fun _ _ _ => sparing_of_isSparing) (by decide +kernel)
  have hbrought : brought jsonPlatform openServer UInt64.ofNat start twoClients 0
      = framed openServer.magicNumber [question] := by decide +kernel
  refine ⟨s, hexec, run, hstart, every_client_answered jsonPlatform openServer UInt64.ofNat rfl rfl hexec
    hids (fun step hstep => bare_of_isBare (hbare step hstep)) hp hspares handled_information hbrought hstart
    (fun k => ?_)⟩
  rcases hrun k with ⟨hk, hnext⟩ | hstep
  · exact .inl ⟨hk ▸ hrest, hnext.trans hk.symm⟩
  · exact .inr hstep

end NetworkApplication.Rest
