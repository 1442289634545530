import ObjectDepot.Proofs.Histories

/-!
# Pushes are atomic

What `run_push_of_parts` and `run_push_of_failing_part` say of a push on some work is said here of
every history, with the failure traced to the part that fails first (`performAll_of_failing`).
-/

namespace ObjectDepot

open Procedure

variable {branch : String} {work mid after : Work Store} {steps first : List Step} {step : Step}
  {answers : List Answer} {failure : Failure}

/-- Steps of which one fails after others have succeeded fail with it. -/
lemma performAll_of_failing (rest : List Step)
    (ran : (performAll branch first).run work = (.ok answers, mid))
    (failed : (step.perform branch).run mid = (.error failure, after)) :
    (performAll branch (first ++ step :: rest)).run work = (.error failure, after) := by
  induction first generalizing work answers with
  | nil =>
    cases ran
    exact run_bind_of_error failed
  | cons head others ih =>
    obtain ⟨answer, next, begun, ran⟩ := bind_ok ran
    obtain ⟨answers', _, ran, e⟩ := bind_ok ran
    cases e
    rw [List.cons_append, performAll, run_bind_of_ok begun, run_bind_of_error (ih ran)]

/-- Steps fail with the first that fails. -/
lemma performAll_of_failing_at {k : Nat} (at_k : steps[k]? = some step)
    (ran : (performAll branch (steps.take k)).run work = (.ok answers, mid))
    (failed : (step.perform branch).run mid = (.error failure, after)) :
    (performAll branch steps).run work = (.error failure, after) := by
  obtain ⟨bound, rfl⟩ := List.getElem?_eq_some_iff.1 at_k
  have whole := performAll_of_failing (steps.drop (k + 1)) ran failed
  rwa [← List.drop_eq_getElem_cons bound, List.take_append_drop] at whole

/-- In every history a push of something equals its parts done one by one: if none of them fails, it
succeeds and ends in the same contents with the same events; if the `k`th is the first to fail, it
fails as that does, and the contents and the events are what they were. A push of nothing is refused
and changes nothing. -/
theorem push_all_or_nothing (actions : List Action) (branch : String) (key : Json)
    (repository : Repository) (objects : List (Bytes × Bytes)) (references : List (Json × Bytes))
    (present : (History.ofActions actions).work.content.lookup? key = some repository) :
    let work := (History.ofActions actions).work
    let parts := stepsWithin key (RepositoryCall.pushed objects references)
    let push := (Call.inRepository key (.push objects references)).perform branch
    ((objects ≠ [] ∨ references ≠ []) →
      (∀ answers after, (performAll branch parts).run work = (.ok answers, after) →
        ∃ pushed, push.run work = (.ok .done, pushed) ∧
          pushed.content = after.content ∧ pushed.events = after.events) ∧
      ∀ (k : Nat) answers mid part failure after,
        (performAll branch (parts.take k)).run work = (.ok answers, mid) →
        parts[k]? = some part →
        (part.perform branch).run mid = (.error failure, after) →
        ∃ pushed, push.run work = (.error failure, pushed) ∧
          pushed.content = work.content ∧ pushed.events = work.events) ∧
    (objects = [] → references = [] → push.run work = (.error (.rejected .noData), work)) := by
  have distinct := (History.traced actions).distinct
  refine ⟨fun full => ⟨?_, ?_⟩, ?_⟩
  · intro answers after ran
    obtain ⟨log, pushed⟩ := run_push_of_parts full distinct present ran
    exact ⟨_, pushed, rfl, rfl⟩
  · intro k answers mid part failure after ran at_k failed
    have parts := performAll_of_failing_at at_k ran failed
    exact ⟨_, run_push_of_failing_part full distinct present parts, rfl, rfl⟩
  · rintro rfl rfl
    exact run_push_of_nothing distinct present

namespace History

/-- The parts of a push after the short history. The last part points at no object. -/
def sampleParts : List Step :=
  stepsWithin (.string "depot") (RepositoryCall.pushed [(Hash.digest .sha256 [2], [2])]
    [(.string "c", Hash.digest .sha256 [2]), (.string "b", Hash.digest .sha256 [3])])

/-- After the short history a push whose last part points at no object leaves neither its object nor
the reference that it added first. -/
theorem push_all_or_nothing_sample :
    (ofActions sample).work.content.lookup? (.string "depot") = some sampleRepository ∧
      ∃ failure pushed, ((Call.inRepository (.string "depot")
          (.push [(Hash.digest .sha256 [2], [2])] [(.string "c", Hash.digest .sha256 [2]),
            (.string "b", Hash.digest .sha256 [3])])).perform "main").run (ofActions sample).work =
        (.error failure, pushed) ∧
        pushed.content = (ofActions sample).work.content ∧
        pushed.events = (ofActions sample).work.events := by
  have present : (ofActions sample).work.content.lookup? (.string "depot") =
    some sampleRepository := by decide +kernel
  refine ⟨present, ?_⟩
  obtain ⟨atomic, _⟩ := push_all_or_nothing sample "main" (.string "depot") sampleRepository
    [(Hash.digest .sha256 [2], [2])]
    [(.string "c", Hash.digest .sha256 [2]), (.string "b", Hash.digest .sha256 [3])] present
  obtain ⟨_, fails⟩ := atomic (.inl (List.cons_ne_nil _ _))
  have begun : ((performAll "main" (sampleParts.take 2)).run (ofActions sample).work).1.isOk := by
    decide +kernel
  have stopped : ((Step.perform "main" sampleParts[2]).run
      ((performAll "main" (sampleParts.take 2)).run (ofActions sample).work).2).1.isOk = false := by
    decide +kernel
  rcases ran : (performAll "main" (sampleParts.take 2)).run (ofActions sample).work with
    ⟨failure | answers, mid⟩
  · rw [ran] at begun
    cases begun
  rw [ran] at stopped
  rcases failed : (Step.perform "main" sampleParts[2]).run mid with ⟨failure | answer, after⟩
  · exact ⟨failure, fails 2 answers mid sampleParts[2] failure after ran rfl failed⟩
  · rw [failed] at stopped
    cases stopped

end History

end ObjectDepot
