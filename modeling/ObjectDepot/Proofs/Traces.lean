import ObjectDepot.Proofs.Pushes

/-!
# Traces of a store

`Store.Change` is the rule book for calls other than pushes. A `Trace` is a list of such calls that
succeed one after another from the empty store. `Trace.step` is the main result: a step that succeeds
prolongs a trace by the calls for which it stands, every push by its parts, whatever was tried and
undone inside it. `Trace.step_failed` says that a step that fails leaves no trace.
-/

namespace ObjectDepot

open Procedure

/-- Whether a call is a push. -/
def Call.isPush : Call → Bool
  | .inRepository _ call => call.isPush
  | _ => false

/-- The calls for which a call stands: a push stands for its parts. -/
def Call.parts : Call → List Call
  | .inRepository key call => call.parts.map (.inRepository key)
  | call => [call]

/-- A call that is no push is its own part. -/
lemma Call.parts_of_single {call : Call} (single : call.isPush = false) : call.parts = [call] := by
  cases call with
  | inRepository key call =>
    rw [parts, RepositoryCall.parts_of_single single]
    rfl
  | _ => rfl

/-- A push is a push into some repository. -/
lemma Call.eq_of_isPush {call : Call} (push : call.isPush) :
    ∃ key objects references, call = .inRepository key (.push objects references) := by
  cases call with
  | inRepository key call =>
    cases call with
    | push objects references => exact ⟨key, objects, references, rfl⟩
    | _ => cases push
  | _ => cases push

mutual
/-- The calls for which a step stands if it gives an answer. An attempt that failed stands for none. -/
def Step.calls : Step → Answer → List Call
  | .call call, _ => call.parts
  | .transaction steps _, .answers answers => callsOfAll steps answers
  | .attempt step, .answers [answer] => step.calls answer
  | _, _ => []

/-- The calls for which steps stand if they give answers. -/
def callsOfAll : List Step → List Answer → List Call
  | step :: rest, answer :: answers => step.calls answer ++ callsOfAll rest answers
  | _, _ => []
end

/-- The change that a call makes to the store where it succeeds, and the events that it queues. -/
inductive Store.Change (store : Store) : Call → Store → List Event → Prop where
  | create {branch text account : String} {name owner algorithm : Json} {chosen : Algorithm} :
    validName? name = some text →
    Algorithm.ofJson algorithm = .ok chosen →
    store.find? text = none →
    lookupKey? owner = some account →
    Change store (.create name owner algorithm)
      ⟨store.repositories ++ [⟨text, chosen, branchFolder ++ branch, account, "", [], []⟩]⟩ []
  | within {key : Json} {repository after : Repository} {call : RepositoryCall}
    {sent : List Event} :
    store.lookup? key = some repository →
    repository.Change call after sent →
    Change store (.inRepository key call) (store.replace after) sent
  | dump :
    Change store .dump store []

/-- The store to which calls lead that succeed one after another from the empty store, and the events
that they send. -/
inductive Trace : List Call → Store → List Event → Prop where
  | start :
    Trace [] .empty []
  | call {calls : List Call} {store after : Store} {events sent : List Event} {call : Call} :
    Trace calls store events →
    store.Change call after sent →
    Trace (calls ++ [call]) after (events ++ sent)

variable {branch : String} {calls : List Call} {store : Store} {events : List Event}
  {work after : Work Store}

/-- No two repositories ever have one name. -/
lemma Trace.distinct (trace : Trace calls store events) : store.names.Nodup := by
  induction trace with
  | start => exact List.nodup_nil
  | call _ change ih =>
    cases change with
    | create _ _ fresh _ =>
      have absent := Keys.find?_key_none.1 fresh
      simp only [Store.names, List.map_append, List.map_cons, List.map_nil]
      refine List.nodup_append'.2 ⟨ih, List.nodup_singleton _, ?_⟩
      exact List.disjoint_singleton.2 absent
    | within => rwa [Store.names_replace]
    | dump => exact ih

/-- Every repository has a name. -/
lemma Trace.named (trace : Trace calls store events) : ∀ name ∈ store.names, name ≠ "" := by
  induction trace with
  | start => exact nofun
  | call _ change ih =>
    cases change with
    | create valid =>
      intro name member
      rw [Store.names, List.map_append] at member
      rcases List.mem_append.1 member with old | new
      · exact ih name old
      · obtain rfl := List.mem_singleton.1 new
        exact (Repository.eq_of_validName? valid).2
    | within => rwa [Store.names_replace]
    | dump => exact ih

/-- A call that creates a repository either is refused and leaves the work as it is, or adds it. -/
lemma run_create {name owner algorithm : Json} {outcome : Except Failure Answer}
    (h : ((Call.create name owner algorithm).perform branch).run work = (outcome, after)) :
    (∃ failure, outcome = .error failure ∧ after = work) ∨
      ∃ answer sent, outcome = .ok answer ∧ after.events = work.events ++ sent ∧
        work.content.Change (.create name owner algorithm) after.content sent := by
  unfold Call.perform at h
  simp only [StoreBackend.createRepository] at h
  unfold Store.createRepository at h
  cases valid : validName? name with
  | none =>
    simp only [valid] at h
    cases h
    exact .inl ⟨_, rfl, rfl⟩
  | some text =>
    simp only [valid] at h
    cases known : Algorithm.ofJson algorithm with
    | error fault =>
      simp only [known] at h
      cases h
      exact .inl ⟨_, rfl, rfl⟩
    | ok chosen =>
      cases fresh : work.content.find? text with
      | some other =>
        simp only [known, orFault, pure_bind, run_bind, run_content, fresh] at h
        cases h
        exact .inl ⟨_, rfl, rfl⟩
      | none =>
        cases told : lookupKey? owner with
        | none =>
          simp only [known, orFault, pure_bind, run_bind, run_content, fresh, told] at h
          cases h
          exact .inl ⟨_, rfl, rfl⟩
        | some account =>
          simp only [known, orFault, pure_bind, run_bind, run_content, fresh, told] at h
          cases h
          exact .inr ⟨_, [], rfl, (List.append_nil _).symm, .create valid known fresh told⟩

/-- A call that creates a repository and succeeds adds one with a new name and the given owner. -/
lemma create_ok {name owner algorithm : Json} {answer : Answer}
    (h : ((Call.create name owner algorithm).perform branch).run work = (.ok answer, after)) :
    ∃ repository : Repository, work.content.find? repository.name = none ∧
      lookupKey? owner = some repository.owner ∧
      after.content = ⟨work.content.repositories ++ [repository]⟩ := by
  rcases run_create h with ⟨_, e, _⟩ | ⟨_, _, _, _, change⟩
  · cases e
  generalize after.content = left at change ⊢
  cases change with
  | create _ _ fresh told => exact ⟨_, fresh, told, rfl⟩

/-- Every call but a push either is refused and leaves the work as it is, or is done by the rules. -/
lemma Call.settled {call : Call} {outcome : Except Failure Answer}
    (single : call.isPush = false) (distinct : work.content.names.Nodup)
    (h : (call.perform branch).run work = (outcome, after)) :
    (∃ failure, outcome = .error failure ∧ after = work) ∨
      ∃ answer sent, outcome = .ok answer ∧ after.events = work.events ++ sent ∧
        work.content.Change call after.content sent := by
  cases call with
  | create name owner algorithm => exact run_create h
  | dump =>
    cases h
    exact .inr ⟨_, [], rfl, (List.append_nil _).symm, .dump⟩
  | inRepository key call =>
    cases found : work.content.lookup? key with
    | none =>
      cases (run_inRepository_none found).symm.trans h
      exact .inl ⟨_, rfl, rfl⟩
    | some repository =>
      obtain ⟨_, here⟩ := Store.lookup?_iff.1 found
      have inside : (Store.within key call.perform).run work = (outcome, after) := h
      obtain ⟨done, ran, rfl⟩ := Store.within_eq found inside
      have settled := RepositoryCall.settles single { work with content := repository }
      rw [ran] at settled
      cases settled with
      | refused failure =>
        refine .inl ⟨failure, rfl, ?_⟩
        rw [Store.replace_self distinct here]
      | done answer change sent =>
        exact .inr ⟨answer, _, rfl, sent, .within found change⟩

/-- A single call that succeeds prolongs a trace. -/
lemma Trace.single {call : Call} {answer : Answer} (trace : Trace calls work.content work.events)
    (single : call.isPush = false)
    (h : (call.perform branch).run work = (.ok answer, after)) :
    Trace (calls ++ [call]) after.content after.events := by
  rcases Call.settled single trace.distinct h with ⟨_, e, _⟩ | ⟨_, sent, _, events, change⟩
  · cases e
  · rw [events]
    exact trace.call change

/-- Single operations on one repository that succeed one after another prolong a trace. -/
lemma Trace.singles {key : Json} {operations : List RepositoryCall} {answers : List Answer}
    (trace : Trace calls work.content work.events)
    (single : ∀ call ∈ operations, call.isPush = false)
    (h : (performAll branch (stepsWithin key operations)).run work = (.ok answers, after)) :
    Trace (calls ++ operations.map (.inRepository key)) after.content after.events := by
  induction operations generalizing work calls answers with
  | nil =>
    cases h
    rwa [List.map_nil, List.append_nil]
  | cons operation rest ih =>
    obtain ⟨answer, mid, first, h⟩ := bind_ok h
    obtain ⟨answers', _, others, h⟩ := bind_ok h
    cases h
    have performed : ((Call.inRepository key operation).perform branch).run work =
      (.ok answer, mid) := first
    have alone : (Call.inRepository key operation).isPush = false :=
      single operation List.mem_cons_self
    have begun := trace.single alone performed
    have done := ih begun (fun call hc => single call (List.mem_cons_of_mem _ hc)) others
    rwa [List.append_assoc] at done

/-- A push either fails and leaves the contents and the queue of events as they were, or ends in
those of its parts done one after another. -/
lemma run_push_cases {key : Json} {objects : List (Bytes × Bytes)}
    {references : List (Json × Bytes)} {outcome : Except Failure Answer}
    (distinct : work.content.names.Nodup)
    (h : ((Call.inRepository key (.push objects references)).perform branch).run work =
      (outcome, after)) :
    (∃ failure, outcome = .error failure ∧ after.content = work.content ∧
      after.events = work.events) ∨
    ∃ answer answers done, outcome = .ok answer ∧
      (performAll branch (stepsWithin key (RepositoryCall.pushed objects references))).run work =
        (.ok answers, done) ∧
      after.content = done.content ∧ after.events = done.events := by
  cases found : work.content.lookup? key with
  | none =>
    cases (run_inRepository_none found).symm.trans h
    exact .inl ⟨_, rfl, rfl, rfl⟩
  | some repository =>
    by_cases full : objects ≠ [] ∨ references ≠ []
    · rcases ran : (performAll branch
        (stepsWithin key (RepositoryCall.pushed objects references))).run work with
        ⟨failure | answers, done⟩
      · cases (run_push_of_failing_part full distinct found ran).symm.trans h
        exact .inl ⟨_, rfl, rfl, rfl⟩
      · obtain ⟨log, pushed⟩ := run_push_of_parts full distinct found ran
        cases pushed.symm.trans h
        exact .inr ⟨_, answers, done, rfl, rfl, rfl, rfl⟩
    · obtain ⟨rfl, rfl⟩ : objects = [] ∧ references = [] := by simpa [not_or] using full
      cases (run_push_of_nothing distinct found).symm.trans h
      exact .inl ⟨_, rfl, rfl, rfl⟩

/-- A call either fails and leaves the contents and the queue of events as they were, or prolongs a
trace by the calls for which it stands. -/
lemma Trace.perform {call : Call} {outcome : Except Failure Answer}
    (trace : Trace calls work.content work.events)
    (h : (call.perform branch).run work = (outcome, after)) :
    (∃ failure, outcome = .error failure ∧ after.content = work.content ∧
      after.events = work.events) ∨
    ∃ answer, outcome = .ok answer ∧
      Trace (calls ++ call.parts) after.content after.events := by
  cases push : call.isPush with
  | false =>
    rw [Call.parts_of_single push]
    rcases Call.settled push trace.distinct h with ⟨failure, rfl, rfl⟩ | ⟨answer, _, rfl, _⟩
    · exact .inl ⟨failure, rfl, rfl, rfl⟩
    · exact .inr ⟨answer, rfl, trace.single push h⟩
  | true =>
    obtain ⟨key, objects, references, rfl⟩ := Call.eq_of_isPush push
    rcases run_push_cases trace.distinct h with
      failed | ⟨answer, answers, done, rfl, ran, content, events⟩
    · exact .inl failed
    · refine .inr ⟨answer, rfl, ?_⟩
      rw [content, events]
      exact trace.singles (fun _ => RepositoryCall.single_of_pushed) ran

/-- An attempt of a step that succeeds answers what the step answers. -/
lemma run_attempt_of_ok {step : Step} {answer : Answer}
    (h : (step.perform branch).run work = (.ok answer, after)) :
    ((Step.attempt step).perform branch).run work = (.ok (.answers [answer]), after) :=
  run_tryCatch_of_ok (run_bind_of_ok h)

/-- An attempt of a step that fails answers nothing, and goes on from what the step leaves. -/
lemma run_attempt_of_error {step : Step} {failure : Failure}
    (h : (step.perform branch).run work = (.error failure, after)) :
    ((Step.attempt step).perform branch).run work = (.ok (.answers []), after) :=
  run_tryCatch_of_error (run_bind_of_error h)

/-- A step that fails leaves the contents and the queue of events as they were. -/
lemma Trace.step_failed {step : Step} {failure : Failure}
    (trace : Trace calls work.content work.events)
    (h : (step.perform branch).run work = (.error failure, after)) :
    after.content = work.content ∧ after.events = work.events := by
  cases step with
  | transaction => exact atomically_error h
  | attempt step =>
    rcases ran : (step.perform branch).run work with ⟨failure | answer, done⟩
    · cases (run_attempt_of_error ran).symm.trans h
    · cases (run_attempt_of_ok ran).symm.trans h
  | call call =>
    rcases trace.perform h with ⟨_, _, kept⟩ | ⟨_, e, _⟩
    · exact kept
    · cases e

mutual

/-- A step that succeeds prolongs a trace by the calls for which it stands. -/
lemma Trace.step {calls : List Call} {work after : Work Store} {answer : Answer}
    (trace : Trace calls work.content work.events) (step : Step)
    (h : (step.perform branch).run work = (.ok answer, after)) :
    Trace (calls ++ step.calls answer) after.content after.events := by
  cases step with
  | call call =>
    rcases trace.perform h with ⟨_, e, _⟩ | ⟨_, _, prolonged⟩
    · cases e
    · exact prolonged
  | transaction steps giveUp =>
    obtain ⟨answers, mid, ran, h⟩ := bind_ok (atomically_ok h)
    have done := trace.steps steps ran
    cases giveUp with
    | true =>
      -- a transaction that is given up does not succeed
      cases h
    | false =>
      cases h
      exact done
  | attempt step =>
    rcases ran : (step.perform branch).run work with ⟨failure | answer, done⟩
    · cases (run_attempt_of_error ran).symm.trans h
      obtain ⟨content, events⟩ := trace.step_failed ran
      have none : (Step.attempt step).calls (.answers []) = [] := rfl
      rwa [content, events, none, List.append_nil]
    · cases (run_attempt_of_ok ran).symm.trans h
      exact trace.step step ran

/-- Steps that all succeed prolong a trace by the calls for which they stand. -/
lemma Trace.steps {calls : List Call} {work after : Work Store} {answers : List Answer}
    (trace : Trace calls work.content work.events) (steps : List Step)
    (h : (performAll branch steps).run work = (.ok answers, after)) :
    Trace (calls ++ callsOfAll steps answers) after.content after.events := by
  cases steps with
  | nil =>
    cases h
    have none : callsOfAll [] [] = [] := rfl
    rwa [none, List.append_nil]
  | cons step rest =>
    obtain ⟨answer, mid, first, h⟩ := bind_ok h
    obtain ⟨answers', _, others, h⟩ := bind_ok h
    cases h
    have done := (trace.step step first).steps rest others
    rwa [List.append_assoc] at done

end

end ObjectDepot
