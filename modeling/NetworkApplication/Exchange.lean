/-
Questions and answers, in order.

A caller asks the questions of a list, one after the other; a callee receives them, answers one
before it receives the next, and gives no answer to those that want none; the caller hears the
answers. Nothing is lost, nothing comes twice and nothing overtakes, and what is on the way
between the two sides is what has been asked and not received, and answered and not heard. Some
answers are not audible: they arrive, and the caller is told nothing.

That is what a connection between two parties is for, whatever it is made of. `reachable_iff` says
which states the two can get into, so an implementation is shown to keep the order by showing
that what it has asked, received, answered and heard is `InOrder`.
-/
import Mathlib.Data.List.Forall2
import Mathlib.Data.List.Infix
import Mathlib.Logic.Relation

set_option autoImplicit false

namespace NetworkApplication.Exchange

variable {Q A : Type}

/-- What is asked, which questions want an answer, what answers them and what is audible. -/
structure Protocol (Q A : Type) where
  script : List Q
  wants : Q → Bool
  Answers : Q → A → Prop
  audible : A → Bool

/-- What has happened so far. -/
structure State (Q A : Type) where
  asked : List Q
  received : List Q
  answers : List A
  heard : List A

/-- Nothing has. -/
def State.start : State Q A := ⟨[], [], [], []⟩

variable (p : Protocol Q A)

/-- The answers are those to the questions that want one. -/
def Served (received : List Q) (answers : List A) : Prop :=
  List.Forall₂ p.Answers (received.filter p.wants) answers

/-- What the two sides can do. -/
inductive Step : State Q A → State Q A → Prop where
  | ask {s : State Q A} {q : Q} (h : s.asked ++ [q] <+: p.script) :
    Step s { s with asked := s.asked ++ [q] }
  | receive {s : State Q A} {q : Q} (h : s.received ++ [q] <+: s.asked)
      (hserved : Served p s.received s.answers) : Step s { s with received := s.received ++ [q] }
  | answer {s : State Q A} {a : A} (h : Served p s.received (s.answers ++ [a])) :
    Step s { s with answers := s.answers ++ [a] }
  | hear {s : State Q A} {a : A} (h : s.heard ++ [a] <+: s.answers.filter p.audible) :
    Step s { s with heard := s.heard ++ [a] }

/-- The states the two can get into. -/
def Reachable (s : State Q A) : Prop := Relation.ReflTransGen (Step p) .start s

/-- All questions but the last have their answers. -/
def Answered (received : List Q) (answers : List A) : Prop :=
  Served p received answers ∨
    ∃ old q, received = old ++ [q] ∧ p.wants q = true ∧ Served p old answers

/-- Nothing is lost, doubled or out of order. -/
structure InOrder (s : State Q A) : Prop where
  asked : s.asked <+: p.script
  received : s.received <+: s.asked
  answered : Answered p s.received s.answers
  heard : s.heard <+: s.answers.filter p.audible

/-- Everything is asked, received, answered and heard. -/
structure Complete (s : State Q A) : Prop where
  asked : s.asked = p.script
  received : s.received = p.script
  served : Served p s.received s.answers
  heard : s.heard = s.answers.filter p.audible

variable {p} {s s' : State Q A} {received : List Q} {answers : List A} {q : Q} {a : A}

theorem served_nil : Served p [] [] := .nil

/-- Every answer is one to some question. -/
theorem Served.of_mem (h : Served p received answers) (ha : a ∈ answers) : ∃ q, p.Answers q a := by
  obtain ⟨i, hi, rfl⟩ := List.getElem_of_mem ha
  exact ⟨_, h.get (by rw [List.Forall₂.length_eq h]; exact hi) hi⟩

theorem Answered.of_mem (h : Answered p received answers) (ha : a ∈ answers) :
    ∃ q, p.Answers q a := by
  rcases h with hserved | ⟨old, q, -, -, hserved⟩
  · exact hserved.of_mem ha
  · exact hserved.of_mem ha

/-- A question that wants no answer. -/
theorem served_concat_of_not_wants (hq : p.wants q = false) :
    Served p (received ++ [q]) answers ↔ Served p received answers := by
  rw [Served, Served, List.filter_append, List.filter_cons_of_neg (by simp [hq]), List.filter_nil,
    List.append_nil]

/-- A question and its answer. -/
theorem served_concat_of_wants (hq : p.wants q = true) :
    Served p (received ++ [q]) answers ↔
      ∃ old a, answers = old ++ [a] ∧ Served p received old ∧ p.Answers q a := by
  rw [Served, List.filter_append, List.filter_cons_of_pos hq, List.filter_nil]
  constructor
  · intro h
    have hreverse := List.forall₂_reverse_iff.mpr h
    rw [List.reverse_append] at hreverse
    obtain ⟨a, old, ha, hold, heq⟩ := List.forall₂_cons_left_iff.mp hreverse
    refine ⟨old.reverse, a, ?_, ?_, ha⟩
    · rw [← List.reverse_cons, ← heq, List.reverse_reverse]
    · exact List.forall₂_reverse_iff.mp (by rwa [List.reverse_reverse])
  · rintro ⟨old, a, rfl, hold, ha⟩
    exact List.rel_append hold (.cons ha .nil)

/-- A new question is open, or wants no answer. -/
theorem answered_concat (q : Q) (h : Served p received answers) :
    Answered p (received ++ [q]) answers := by
  cases hq : p.wants q with
  | true => exact .inr ⟨received, q, rfl, hq, h⟩
  | false => exact .inl ((served_concat_of_not_wants hq).mpr h)

/-- **Step lemma.** -/
theorem InOrder.step (h : InOrder p s) (hs : Step p s s') : InOrder p s' := by
  cases hs with
  | ask hask => exact { h with
      asked := hask
      received := h.received.trans (List.prefix_append _ _) }
  | receive hreceive hserved => exact { h with
      received := hreceive
      answered := answered_concat _ hserved }
  | answer hserved => exact { h with
      answered := .inl hserved
      heard := by
        rw [List.filter_append]
        exact h.heard.trans (List.prefix_append _ _) }
  | hear hhear => exact { h with heard := hhear }

/-! ## Every orderly state is reached -/

theorem reachable_asked {asked : List Q} (h : asked <+: p.script) :
    Reachable p ⟨asked, [], [], []⟩ := by
  induction asked using List.reverseRecOn with
  | nil => exact .refl
  | append_singleton asked q ih =>
    exact .tail (ih ((List.prefix_append _ _).trans h)) (.ask (s := ⟨asked, [], [], []⟩) h)

/-- The questions are received and answered one after the other. -/
theorem reachable_served {asked : List Q} (hasked : asked <+: p.script) (h : received <+: asked)
    (hserved : Served p received answers) : Reachable p ⟨asked, received, answers, []⟩ := by
  induction received using List.reverseRecOn generalizing answers with
  | nil =>
    obtain rfl := List.forall₂_nil_left_iff.mp hserved
    exact reachable_asked hasked
  | append_singleton received q ih =>
    have hreceived := (List.prefix_append received [q]).trans h
    cases hq : p.wants q with
    | true =>
      obtain ⟨old, a, rfl, hold, -⟩ := (served_concat_of_wants hq).mp hserved
      have hopen : Reachable p ⟨asked, received ++ [q], old, []⟩ :=
        .tail (ih hreceived hold) (.receive (s := ⟨asked, received, old, []⟩) h hold)
      exact .tail hopen (.answer (s := ⟨asked, received ++ [q], old, []⟩) hserved)
    | false =>
      have hold := (served_concat_of_not_wants hq).mp hserved
      exact .tail (ih hreceived hold) (.receive (s := ⟨asked, received, answers, []⟩) h hold)

theorem reachable_answered {asked : List Q} (hasked : asked <+: p.script) (h : received <+: asked)
    (hanswered : Answered p received answers) : Reachable p ⟨asked, received, answers, []⟩ := by
  rcases hanswered with hserved | ⟨old, q, rfl, -, hserved⟩
  · exact reachable_served hasked h hserved
  · exact .tail (reachable_served hasked ((List.prefix_append _ _).trans h) hserved)
      (.receive (s := ⟨asked, old, answers, []⟩) h hserved)

theorem reachable_heard {asked : List Q} {heard : List A}
    (h : Reachable p ⟨asked, received, answers, []⟩) (hheard : heard <+: answers.filter p.audible) :
    Reachable p ⟨asked, received, answers, heard⟩ := by
  induction heard using List.reverseRecOn with
  | nil => exact h
  | append_singleton heard a ih =>
    exact .tail (ih ((List.prefix_append _ _).trans hheard))
      (.hear (s := ⟨asked, received, answers, heard⟩) hheard)

/-- **What can be reached**: the states in which everything is in order. -/
theorem reachable_iff : Reachable p s ↔ InOrder p s := by
  constructor
  · intro h
    induction h with
    | refl => exact ⟨⟨_, rfl⟩, ⟨_, rfl⟩, .inl served_nil, ⟨_, rfl⟩⟩
    | tail _ hs ih => exact ih.step hs
  · intro h
    exact reachable_heard (reachable_answered h.asked h.received h.answered) h.heard

end NetworkApplication.Exchange
