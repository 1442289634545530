import Mathlib.Tactic.Lemma
import ObjectDepot.Work

/-!
# Running procedures

Runs of two procedures in a row are put together by `run_bind_of_ok` and `run_bind_of_error` and taken
apart by `bind_ok`. `atomically_ok` and `atomically_error` say what a failure undoes. `outcome` is what
a procedure ends with on contents to which nothing else is done.
-/

namespace ObjectDepot

variable {σ α β : Type}

namespace Procedure

/-- What a procedure ends with on some contents. -/
def outcome (procedure : Procedure σ α) (content : σ) : Except Failure α :=
  (procedure.run (Work.start content)).1

/-- A calculation that succeeds has succeeded at its first step. -/
lemma except_bind_ok {ε : Type} {first : Except ε α} {f : α → Except ε β} {b : β}
    (h : first >>= f = .ok b) : ∃ a, first = .ok a ∧ f a = .ok b := by
  cases first with
  | error e => cases h
  | ok a => exact ⟨a, rfl, h⟩

/-- Two procedures in a row: the second runs where the first succeeds. -/
lemma run_bind (p : Procedure σ α) (f : α → Procedure σ β) (work : Work σ) :
    (p >>= f).run work = match p.run work with
      | (.ok a, after) => (f a).run after
      | (.error e, after) => (.error e, after) := by
  simp only [bind, ExceptT.bind, ExceptT.run, ExceptT.mk, StateT.bind]
  rcases p work with ⟨_ | _, _⟩ <;> rfl

/-- After a success the second procedure runs on the work that the first leaves. -/
lemma run_bind_of_ok {p : Procedure σ α} {f : α → Procedure σ β} {work after : Work σ} {a : α}
    (h : p.run work = (.ok a, after)) : (p >>= f).run work = (f a).run after := by
  rw [run_bind, h]

/-- What fails is not followed by anything. -/
lemma run_bind_of_error {p : Procedure σ α} {f : α → Procedure σ β} {work after : Work σ}
    {e : Failure} (h : p.run work = (.error e, after)) :
    (p >>= f).run work = (.error e, after) := by
  rw [run_bind, h]

/-- A chain of procedures that succeeds is a chain of successes. -/
lemma bind_ok {p : Procedure σ α} {f : α → Procedure σ β} {work after : Work σ} {b : β}
    (h : (p >>= f).run work = (.ok b, after)) :
    ∃ a mid, p.run work = (.ok a, mid) ∧ (f a).run mid = (.ok b, after) := by
  rw [run_bind] at h
  split at h
  case h_1 a mid e => exact ⟨a, mid, e, h⟩
  case h_2 => cases h

/-- What is made of the value changes neither the failure nor the work. -/
lemma run_map {p : Procedure σ α} {f : α → β} {work after : Work σ} {result : Except Failure α}
    (h : p.run work = (result, after)) : (f <$> p).run work = (result.map f, after) := by
  rw [← bind_pure_comp]
  cases result with
  | error e => exact run_bind_of_error h
  | ok a => exact run_bind_of_ok h

/-- The content is looked at, and left. -/
lemma run_content (work : Work σ) :
    (content : Procedure σ σ).run work = (.ok work.content, work) := rfl

/-- An outcome that may be a fault leaves the work. -/
lemma run_orFault (outcome : Except Fault α) (work : Work σ) :
    (orFault outcome : Procedure σ α).run work = (outcome.mapError .fault, work) := by
  cases outcome <;> rfl

/-- An outcome leaves the work. -/
lemma run_ofExcept (outcome : Except Failure α) (work : Work σ) :
    (ofExcept outcome : Procedure σ α).run work = (outcome, work) := by
  cases outcome <;> rfl

/-- After a calculation that succeeds the work goes on as it was. -/
lemma ofExcept_bind_ok {outcome : Except Failure α} {f : α → Procedure σ β} {work after : Work σ}
    {b : β} (h : (ofExcept outcome >>= f).run work = (.ok b, after)) :
    ∃ a, outcome = .ok a ∧ (f a).run work = (.ok b, after) := by
  cases outcome with
  | error e => cases h
  | ok a => exact ⟨a, rfl, h⟩

/-- A value is handed on. -/
lemma run_ofExcept_bind {outcome : Except Failure α} {a : α} (h : outcome = .ok a)
    (f : α → Procedure σ β) (work : Work σ) : (ofExcept outcome >>= f).run work = (f a).run work := by
  rw [h]
  exact run_bind_of_ok (run_ofExcept _ work)

/-- A success passes by what would catch a failure. -/
lemma run_tryCatch_of_ok {p : Procedure σ α} {f : Failure → Procedure σ α} {work after : Work σ} {a : α}
    (h : p.run work = (.ok a, after)) : (tryCatch p f).run work = (.ok a, after) := by
  simp only [tryCatch, tryCatchThe, MonadExceptOf.tryCatch, ExceptT.tryCatch, ExceptT.run, ExceptT.mk, bind,
    StateT.bind] at h ⊢
  rw [h]
  rfl

/-- A failure that is caught is answered on the work that it leaves. -/
lemma run_tryCatch_of_error {p : Procedure σ α} {f : Failure → Procedure σ α} {work after : Work σ}
    {e : Failure} (h : p.run work = (.error e, after)) : (tryCatch p f).run work = (f e).run after := by
  simp only [tryCatch, tryCatchThe, MonadExceptOf.tryCatch, ExceptT.tryCatch, ExceptT.run, ExceptT.mk, bind,
    StateT.bind] at h ⊢
  rw [h]

/-- A procedure that succeeds as a whole is not changed by running it as one. -/
lemma run_atomically_of_ok {p : Procedure σ α} {work after : Work σ} {a : α}
    (h : p.run work = (.ok a, after)) : (atomically p).run work = (.ok a, after) := by
  simp only [atomically, ExceptT.run_mk, h]

/-- A failure undoes what was done to the contents and to the queue of events. -/
lemma run_atomically_of_error {p : Procedure σ α} {work after : Work σ} {e : Failure}
    (h : p.run work = (.error e, after)) :
    (atomically p).run work =
      (.error e, { after with content := work.content, events := work.events }) := by
  simp only [atomically, ExceptT.run_mk, h]

/-- What succeeds as one unit succeeds by itself. -/
lemma atomically_ok {p : Procedure σ α} {work after : Work σ} {a : α}
    (h : (atomically p).run work = (.ok a, after)) : p.run work = (.ok a, after) := by
  rcases e : p.run work with ⟨_ | _, _⟩
  · rw [run_atomically_of_error e] at h
    cases h
  · rw [run_atomically_of_ok e] at h
    exact h

/-- What fails as one leaves the contents and the queue of events as they were. -/
lemma atomically_error {p : Procedure σ α} {work after : Work σ} {failure : Failure}
    (h : (atomically p).run work = (.error failure, after)) :
    after.content = work.content ∧ after.events = work.events := by
  rcases e : p.run work with ⟨_ | _, _⟩
  · rw [run_atomically_of_error e] at h
    cases h
    exact ⟨rfl, rfl⟩
  · rw [run_atomically_of_ok e] at h
    cases h

end Procedure

end ObjectDepot
