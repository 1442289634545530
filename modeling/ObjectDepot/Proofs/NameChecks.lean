import ObjectDepot.Proofs.Resending
import ObjectDepot.Proofs.Retrieval

/-!
# What a push checks of names

An update that points a name at an object checks that the name is valid. A deletion only looks its name
up, and a value that is no text is looked up by its literal. `Change.passes` says that no other name that is
not valid comes through, `History.push_texts` that a push with such values does what it does with their
texts, and `History.told` what the events of references can tell.
-/

namespace ObjectDepot

open Procedure

/-- Whether a value is looked up by its literal: it is neither null nor a text. -/
def Json.readsAsLiteral : Json → Bool
  | .null | .string _ => false
  | _ => true

/-- A value that is read as a literal is looked up under it. -/
lemma lookupKey?_of_literal {key : Json} (literal : key.readsAsLiteral) :
    lookupKey? key = some key.plain := by
  cases key with
  | null => cases literal
  | _ => rfl

/-- A name that is not checked: it is looked up by its literal, and only to be deleted. -/
def Repository.Unchecked (key : Json) (hash : Bytes) : Prop :=
  Hash.isZero hash ∧ key.readsAsLiteral

/-- What operations tell of a reference by a name: the name is valid or not checked, and its text is a name
of the table that some of the operations lead to. -/
structure Repository.Told (calls : List RepositoryCall) (key : Json) (hash : Bytes) : Prop where
  passes : isValidName key ∨ Unchecked key hash
  full : key.plain ≠ ""
  stood : ∃ earlier, earlier <+: calls ∧ key.plain ∈ (SwapList.replay earlier).names

namespace Repository

open RepositoryCall (pushed ofChange ofChange_of_zero)

variable {repository after : Repository} {entries : SwapList} {key : Json} {hash previous : Bytes}
  {row : Reference} {sent : List Event} {call : RepositoryCall} {calls more : List RepositoryCall}
  {objects : List (Bytes × Bytes)} {references : List (Json × Bytes)}

/-- A name that finds a row is valid, or looked up by its literal. -/
lemma Lists.name_of_found (lists : Lists repository entries)
    (found : repository.lookupReference? key = some row) : isValidName key ∨ key.readsAsLiteral := by
  cases key with
  | null => cases found
  | string text =>
    -- the empty text is not found, since no row has it as its name
    have found : repository.findReference? text = some row := found
    have full : text ≠ "" := by
      rintro rfl
      exact lists.named (lists.find?_isSome.1 (Option.isSome_of_eq_some found))
    have valid : validName? (.string text) = some text := if_neg full
    exact .inl (Option.isSome_of_eq_some valid)
  | _ => exact .inr rfl

/-- An update is made of a name that is valid or not checked. -/
lemma Change.passes (lists : Lists repository entries)
    (change : repository.Change (ofChange key hash) after sent) :
    isValidName key ∨ Unchecked key hash := by
  cases zero : Hash.isZero hash with
  | false => exact .inl (change.valid_of_nonzero zero)
  | true =>
    rw [ofChange_of_zero zero] at change
    cases change with
    | read reading => cases reading
    | erase _ found => exact (lists.name_of_found found).imp_right fun literal => ⟨zero, literal⟩

/-- What an update makes of the text of a name it makes of the name, if this is valid or not checked. -/
lemma Change.of_text (passes : isValidName key ∨ Unchecked key hash)
    (change : repository.Change (ofChange (.string key.plain) hash) after sent) :
    ∃ sent', repository.Change (ofChange key hash) after sent' := by
  rcases passes with valid | ⟨zero, literal⟩
  · obtain ⟨same, _⟩ := eq_plain_of_valid valid
    rw [← same] at change
    exact ⟨_, change⟩
  · rw [ofChange_of_zero zero] at change ⊢
    cases change with
    | read reading => cases reading
    | @erase _ row nonempty found =>
      have found' : repository.lookupReference? key = some row := by
        rw [lookupReference?, lookupKey?_of_literal literal]
        exact found
      exact ⟨_, .erase nonempty found'⟩

/-- A push changes what the push with the texts of its names changes, and is done exactly if that is and
each of the names is valid or not checked. -/
lemma changes_texts_iff (lists : Lists repository entries) :
    Changes repository (pushed objects references) after ↔
      Changes repository (pushed objects (textual (plainly references))) after ∧
        ∀ reference ∈ references, isValidName reference.1 ∨ Unchecked reference.1 reference.2 := by
  constructor
  · intro changes
    refine ⟨changes.by_texts, fun reference member => ?_⟩
    obtain ⟨mid, entries', left, sent, lists', change⟩ := changes.reference lists member
    exact change.passes lists'
  · rintro ⟨changes, passes⟩
    rw [pushed, textual, plainly, List.map_map, List.map_map] at changes
    obtain ⟨mid, puts, points⟩ := changes_append_iff.1 changes
    exact changes_append_iff.2 ⟨mid, puts, points.exchange fun reference member _ _ _ change =>
      Change.of_text (passes reference member) change⟩

/-- What was told stays told. -/
lemma Told.mono (told : Told calls key hash) (grown : calls <+: more) : Told more key hash :=
  ⟨told.passes, told.full, told.stood.imp fun _ stood => ⟨stood.1.trans grown, stood.2⟩⟩

/-- What a change tells of a reference. -/
lemma Change.told {name : String} (lists : Lists repository (SwapList.replay calls))
    (change : repository.Change call after sent)
    (member : .referenceChanged name key hash previous ∈ sent) : Told (calls ++ [call]) key hash := by
  have later : Lists after (SwapList.replay (calls ++ [call])) := by
    rw [SwapList.replay_concat]
    exact lists.changed change
  -- a name that is pointed at an object is in the table then, and one that is deleted was before
  cases change with
  | insert valid _ _ fresh =>
    cases List.mem_singleton.1 member
    obtain ⟨rfl, full⟩ := eq_of_validName? valid
    refine ⟨.inl (Option.isSome_of_eq_some valid), full, _, List.prefix_rfl, ?_⟩
    refine later.find?_isSome.1 ?_
    simp [findReference?, insertReference, Json.plain]
  | replace valid _ _ found =>
    cases List.mem_singleton.1 member
    obtain ⟨rfl, full⟩ := eq_of_validName? valid
    refine ⟨.inl (Option.isSome_of_eq_some valid), full, calls, List.prefix_append _ _, ?_⟩
    exact lists.find?_isSome.1 (Option.isSome_of_eq_some found)
  | erase _ found =>
    cases List.mem_singleton.1 member
    have stood : key.plain ∈ (SwapList.replay calls).names :=
      lists.find?_isSome.1 (Option.isSome_of_eq_some (lookupReference?_plain found))
    exact ⟨(lists.name_of_found found).imp_right fun literal => ⟨rfl, literal⟩,
      fun empty => lists.named (empty ▸ stood), calls, List.prefix_append _ _, stood⟩
  | put => cases List.mem_singleton.1 member
  | _ => cases member

/-- The events of a repository tell only of names that are valid or not checked, and whose texts stood in
its table. -/
lemma told_invariant : Invariant fun repository calls events =>
    Lists repository (SwapList.replay calls) ∧ ∀ name key hash previous,
      .referenceChanged name key hash previous ∈ events → Told calls key hash where
  created _ _ _ _ := ⟨.nil rfl, nofun⟩
  changed repository before events call after sent := by
    rintro ⟨lists, told⟩ change
    refine ⟨lists_invariant.changed _ _ events _ _ _ lists change, ?_⟩
    intro name key hash previous member
    rcases List.mem_append.1 member with old | new
    · exact (told _ _ _ _ old).mono (List.prefix_append _ _)
    · exact change.told lists new

end Repository

/-- A name that events of a history tell of is told by the operations on the repository. -/
lemma History.told {actions : List Action} {name : String} {key : Json} {hash previous : Bytes}
    (member : .referenceChanged name key hash previous ∈ (ofActions actions).work.events) :
    Repository.Told (callsOn name (ofActions actions).calls) key hash := by
  have among : .referenceChanged name key hash previous ∈
      eventsOf name (ofActions actions).work.events :=
    List.mem_filter.2 ⟨member, beq_self_eq_true name⟩
  by_cases present : name ∈ (ofActions actions).work.content.names
  · obtain ⟨repository, there, rfl⟩ := List.mem_map.1 present
    exact (History.invariant Repository.told_invariant actions repository there).2 _ _ _ _ among
  · rw [((History.traced actions).absent present).2] at among
    cases among

open Repository in
/-- A push is done exactly if the push with the texts of its names is and each of the names is valid or not
checked, and then leaves what that leaves. -/
lemma History.push_texts (actions : List Action) (branch : String) (key : Json)
    (objects : List (Bytes × Bytes)) (references : List (Json × Bytes)) :
    let push (references : List (Json × Bytes)) :=
      ((Call.inRepository key (.push objects references)).perform branch).run (ofActions actions).work
    let texts := textual (plainly references)
    ((∃ answer, (push references).1 = .ok answer) ↔
      (∃ answer, (push texts).1 = .ok answer) ∧
        ∀ reference ∈ references, isValidName reference.1 ∨ Unchecked reference.1 reference.2) ∧
    ((∃ answer, (push references).1 = .ok answer) →
      (push references).2.content = (push texts).2.content) := by
  intro push texts
  cases here : (ofActions actions).work.content.lookup? key with
  | none =>
    have refused (references : List (Json × Bytes)) (answer : Answer) :
        (push references).1 ≠ .ok answer := by
      simp only [push, run_inRepository_none here]
      exact nofun
    exact ⟨iff_of_false (fun ⟨_, done⟩ => refused _ _ done) fun ⟨⟨_, done⟩, _⟩ => refused _ _ done,
      fun ⟨_, done⟩ => absurd done (refused _ _)⟩
  | some repository =>
    have lists := History.lists here
    have texts_ne_nil : texts ≠ [] ↔ references ≠ [] := by simp [texts, textual, plainly]
    have given : ∀ {answer}, (push references).1 = .ok answer →
        (∀ reference ∈ references, isValidName reference.1 ∨ Unchecked reference.1 reference.2) ∧
          ∃ left, push texts = (.ok .done, left) ∧ left.content = (push references).2.content := by
      intro answer done
      obtain ⟨full, after, changes, left, _⟩ := changes_of_pushed here (Prod.ext done rfl)
      obtain ⟨changes, passes⟩ := (changes_texts_iff lists).1 changes
      obtain ⟨left', ran, same⟩ := changes.push (full.imp_right texts_ne_nil.2) here
      exact ⟨passes, left', ran, same.trans left.symm⟩
    refine ⟨⟨?_, ?_⟩, ?_⟩
    · rintro ⟨answer, done⟩
      obtain ⟨passes, left, ran, _⟩ := given done
      exact ⟨⟨_, congrArg Prod.fst ran⟩, passes⟩
    · rintro ⟨⟨answer, done⟩, passes⟩
      obtain ⟨full, after, changes, _⟩ := changes_of_pushed here (Prod.ext done rfl)
      obtain ⟨left, ran, _⟩ := ((changes_texts_iff lists).2 ⟨changes, passes⟩).push
        (full.imp_right texts_ne_nil.1) here
      exact ⟨_, congrArg Prod.fst ran⟩
    · rintro ⟨answer, done⟩
      obtain ⟨_, left, ran, same⟩ := given done
      rw [ran]
      exact same.symm

/-- Where all items can be read, each is read as one of the results. -/
lemma except_mem_of_mapM {α β ε : Type} {f : α → Except ε β} {items : List α} {read : List β} {item : α}
    (h : items.mapM f = .ok read) (member : item ∈ items) : ∃ b ∈ read, f item = .ok b := by
  induction items generalizing read with
  | nil => cases member
  | cons first rest ih =>
    rw [List.mapM_cons] at h
    obtain ⟨b, begun, h⟩ := except_bind_ok h
    obtain ⟨others, later, h⟩ := except_bind_ok h
    cases h
    rcases List.mem_cons.1 member with rfl | member
    · exact ⟨b, List.mem_cons_self, begun⟩
    · obtain ⟨b, there, same⟩ := ih later member
      exact ⟨b, List.mem_cons_of_mem _ there, same⟩

namespace Http

/-- The objects in the list of references that the body of a request has. -/
def Request.referenceItems (request : Request) : List Json.Members :=
  match request.members with
  | .error _ => []
  | .ok members =>
    match members.get? "refs" with
    | some (.array values) => values.filterMap itemMembers?
    | _ => []

/-- The items of a list of objects are its objects. -/
lemma filterMap_of_mapM {values : List Json} {read : List Json.Members}
    (h : values.mapM itemMembers? = some read) : values.filterMap itemMembers? = read := by
  induction values generalizing read with
  | nil =>
    cases h
    rfl
  | cons value rest ih =>
    rw [List.mapM_cons] at h
    obtain ⟨first, begun, h⟩ := Option.bind_eq_some_iff.1 h
    obtain ⟨others, later, h⟩ := Option.bind_eq_some_iff.1 h
    cases h
    rw [List.filterMap_cons_some begun, ih later]

namespace Service

variable {service : Service} {request : Request} {method : Method} {resource : Resource}
  {name : String} {objects : List (Bytes × Bytes)} {references : List (Json × Bytes)}

/-- What is pushed is read off the lists of objects and of references in the body. -/
lemma operation_push {operation : RepositoryCall}
    (asks : service.operation request method .push = .ok operation) :
    ∃ members objectItems objects referenceItems references, request.members = .ok members ∧
      items members "objects" = .ok objectItems ∧ objectItems.mapM pushedObject = .ok objects ∧
      items members "refs" = .ok referenceItems ∧ referenceItems.mapM pushedReference = .ok references ∧
      operation = .push objects references := by
  obtain ⟨members, read, asks⟩ := except_bind_ok asks
  obtain ⟨objectItems, objectList, asks⟩ := except_bind_ok asks
  obtain ⟨objects, eachObject, asks⟩ := except_bind_ok asks
  obtain ⟨referenceItems, referenceList, asks⟩ := except_bind_ok asks
  obtain ⟨references, eachReference, asks⟩ := except_bind_ok asks
  cases asks
  exact ⟨members, objectItems, objects, referenceItems, references, read, objectList, eachObject,
    referenceList, eachReference, rfl⟩

/-- Each item of the list of references is read as one of the references to push. -/
lemma mem_of_referenceItems {item : Json.Members}
    (asks : service.operation request method .push = .ok (.push objects references))
    (member : item ∈ request.referenceItems) :
    ∃ hash, Hash.ofJson (field item "hash") = .ok hash ∧ (field item "name", hash) ∈ references := by
  obtain ⟨members, _, _, listed, _, read, _, _, list, each, e⟩ := operation_push asks
  cases e
  have among : item ∈ listed := by
    simp only [Request.referenceItems, read] at member
    unfold items at list
    split at member
    case h_1 values given =>
      simp only [given] at list
      split at list
      case h_1 found =>
        cases list
        rwa [filterMap_of_mapM found] at member
      case h_2 => cases list
    case h_2 => cases member
  obtain ⟨_, there, same⟩ := except_mem_of_mapM each among
  obtain ⟨hash, hashed, same⟩ := except_bind_ok same
  cases same
  exact ⟨hash, hashed, there⟩

/-- The call that a request to a repository asks for is the operation that it asks of the repository. -/
lemma operation_of_call? {call : Call}
    (path : Endpoint.ofPath? (pathOf request.target) = some (.repository name resource))
    (sort : Method.ofName? request.method = some method) (permitted : method ∈ resource.methods)
    (asked : service.call? request = some call) :
    ∃ operation, service.operation request method resource = .ok operation ∧
      call = .inRepository (.string name) operation := by
  have allowed : (Method.ofName? request.method).filter
      (· ∈ (Endpoint.repository name resource).methods) = some method := allowed_of_method sort permitted
  simp only [call?, path, allowed, Option.bind_eq_bind, Option.bind_some, Service.call] at asked
  cases asks : service.operation request method resource with
  | error failure =>
    rw [asks] at asked
    cases asked
  | ok operation =>
    rw [asks] at asked
    cases asked
    exact ⟨operation, rfl, rfl⟩

/-- A request whose body has items was read, so it is not too long. -/
lemma short_of_mem_referenceItems {item : Json.Members} (member : item ∈ request.referenceItems) :
    request.tooLong = false := by
  by_contra long
  have unread : request.members = .error (.fault .aborted) := if_pos (Bool.not_eq_false _ ▸ long)
  simp only [Request.referenceItems, unread] at member
  cases member

/-- A request to a repository is answered or rejected, if it resolves nothing, it can be told who sends it,
and it is not too long. -/
lemma rejected_of_sender {work : Work Store} {account : Option String}
    (path : Endpoint.ofPath? (pathOf request.target) = some (.repository name resource))
    (sort : Method.ofName? request.method = some method) (permitted : method ∈ resource.methods)
    (notResolve : resource ≠ .resolve) (sent : service.sender request = .ok account)
    (short : request.tooLong = false)
    (failed : ((service.respond request).run work).1.succeeded = false) :
    ∃ error, ((service.respond request).run work).1 = rejection error := by
  have ends : service.Answers request ((service.respond request).run work).1 ∨
      ∃ cause, ((service.respond request).run work).1 = .crashed cause ∧
        service.Crashes request work.content cause := respond_ends
  rcases ends with answered | ⟨cause, _, crashes⟩
  · generalize ((service.respond request).run work).1 = response at failed answered
    cases answered with
    | unrouted nowhere => cases path.symm.trans nowhere
    | unallowed there refused =>
      cases path.symm.trans there
      exact absurd sort (refused method permitted)
    | stranger there => cases path.symm.trans there
    | rejected => exact ⟨_, rfl⟩
    | done _ _ _ status => rcases status with rfl | rfl <;> cases failed
  · cases crashes with
    | creation there | oversized there => cases path.symm.trans there
    | repository there _ _ _ stumbles =>
      cases path.symm.trans there
      cases stumbles with
      | body _ long =>
        rw [short] at long
        cases long
      | sender _ _ garbles =>
        have hidden : service.sender request = .error (.fault .credentialsNotAscii) :=
          sender_fault.2 ⟨rfl, garbles⟩
        cases hidden.symm.trans sent
      | names => exact absurd rfl notResolve

/-- A request by the owner of a repository to push into it. -/
structure PushesOwn (service : Service) (request : Request) (store : Store) (repository : Repository) :
    Prop where
  path : Endpoint.ofPath? (pathOf request.target) = some (.repository repository.name .push)
  sort : Method.ofName? request.method = some .post
  present : store.find? repository.name = some repository
  sender : service.sender request = .ok (some repository.owner)
  named : repository.owner ≠ ""

variable {repository : Repository} {work after : Work Store} {response : Response}

/-- A push that is done is done for the owner. -/
lemma push_performs {work after : Work Repository} {answer : Answer}
    (sender : service.sender request = .ok (some work.content.owner)) (named : work.content.owner ≠ "")
    (asks : service.operation request .post .push = .ok (.push objects references))
    (performed : (RepositoryCall.push objects references).perform.run work = (.ok answer, after)) :
    (service.push request).run work = (.ok ⟨200, .object [("status", .string "pushed"),
      ("objects", .int objects.length), ("refs", .int references.length)]⟩, after) := by
  obtain ⟨_, done, pushed, rest⟩ := bind_ok performed
  cases rest
  obtain ⟨members, _, _, _, _, read, objectList, eachObject, referenceList, eachReference, e⟩ :=
    operation_push asks
  cases e
  rw [push, run_bind_of_ok (run_gate_of_owner sender named), run_ofExcept_bind read,
    run_ofExcept_bind objectList, run_ofExcept_bind eachObject, run_ofExcept_bind referenceList,
    run_ofExcept_bind eachReference]
  exact run_bind_of_ok pushed

/-- A push by the owner succeeds exactly if it is done, and leaves what is left by it. -/
lemma PushesOwn.succeeded_iff (own : service.PushesOwn request work.content repository)
    (asks : service.operation request .post .push = .ok (.push objects references))
    (ran : (service.respond request).run work = (response, after)) :
    let pushed := ((Call.inRepository (.string repository.name) (.push objects references)).perform
      service.branch).run work
    (response.succeeded ↔ ∃ answer, pushed.1 = .ok answer) ∧ (response.succeeded → pushed.2 = after) := by
  intro pushed
  have does (succeeded : response.succeeded) : ∃ answer, pushed = (.ok answer, after) := by
    rcases respond_cases ran with ⟨_, call, answer, asked, performed⟩ | ⟨failed, _⟩
    · obtain ⟨operation, asks', rfl⟩ :=
        operation_of_call? own.path own.sort (List.mem_singleton_self _) asked
      cases asks.symm.trans asks'
      exact ⟨answer, performed⟩
    · rw [failed] at succeeded
      cases succeeded
  refine ⟨⟨fun succeeded => (does succeeded).imp fun _ e => congrArg Prod.fst e, ?_⟩, fun succeeded => ?_⟩
  · rintro ⟨answer, done⟩
    have here : work.content.lookup? (.string repository.name) = some repository :=
      Store.lookup?_string.trans own.present
    have inside : (Store.within (.string repository.name)
      (RepositoryCall.push objects references).perform).run work = (.ok answer, pushed.2) := Prod.ext done rfl
    obtain ⟨left, performed, _⟩ := Store.within_eq here inside
    have answered := respond_of_handleResource own.path own.sort (List.mem_singleton_self _) own.present
      (push_performs own.sender own.named asks performed)
    rw [ran] at answered
    have accepted : response = .json 200 _ := answered
    rw [accepted]
    rfl
  · obtain ⟨answer, e⟩ := does succeeded
    rw [e]

end Service

end Http

open Repository in
/-- In every history a push that the owner sends is rejected, changes nothing and sends no event where an
item has a name that is not valid, unless the item is a deletion by a value that is neither null nor a
text. A push succeeds exactly if no item has another name that is not valid and the push with the texts of
its names succeeds, and it leaves what that leaves. Every event of a reference tells of a name that is valid
or was not checked, and whose text stood in the table. -/
theorem push_names_checked (actions : List Action) (service : Http.Service) (request : Http.Request)
    (repository : Repository) (response : Http.Response) (after : Work Store)
    (own : service.PushesOwn request (History.ofActions actions).work.content repository)
    (ran : (service.respond request).run (History.ofActions actions).work = (response, after)) :
    (∀ item ∈ request.referenceItems, isValidName (Http.field item "name") = false →
      (∀ hash, Hash.ofJson (Http.field item "hash") = .ok hash →
        ¬ Unchecked (Http.field item "name") hash) →
      (∃ error, response = Http.Service.rejection error) ∧
        after.content = (History.ofActions actions).work.content ∧
        after.events = (History.ofActions actions).work.events) ∧
    (∀ objects references, service.operation request .post .push = .ok (.push objects references) →
      let plain := (pushInto service.branch (.string repository.name) objects (plainly references)).run
        (History.ofActions actions).work
      (response.succeeded ↔ (∃ answer, plain.1 = .ok answer) ∧
        ∀ reference ∈ references, isValidName reference.1 ∨ Unchecked reference.1 reference.2) ∧
      (response.succeeded → after.content = plain.2.content)) ∧
    ∀ name key hash previous, .referenceChanged name key hash previous ∈ after.events →
      Told (callsOn name (History.ofActions (actions ++ [.ask service request])).calls) key hash := by
  have pushes := History.push_texts actions service.branch (.string repository.name)
  refine ⟨?_, ?_, ?_⟩
  · intro item member invalid checked
    rcases Http.Service.respond_cases ran with ⟨_, call, answer, asked, performed⟩ | ⟨failed, kept⟩
    · -- a push that is done has no such item
      obtain ⟨operation, asks, rfl⟩ :=
        Http.Service.operation_of_call? own.path own.sort (List.mem_singleton_self _) asked
      obtain ⟨_, _, objects, _, references, _, _, _, _, _, rfl⟩ := Http.Service.operation_push asks
      obtain ⟨hash, hashed, listed⟩ := Http.Service.mem_of_referenceItems asks member
      obtain ⟨passes, _⟩ := pushes objects references
      rcases (passes.1 ⟨answer, congrArg Prod.fst performed⟩).2 _ listed with valid | unchecked
      · rw [invalid] at valid
        cases valid
      · exact absurd unchecked (checked hash hashed)
    · refine ⟨?_, kept⟩
      have failed' : ((service.respond request).run (History.ofActions actions).work).1.succeeded = false := by
        rw [ran]
        exact failed
      obtain ⟨error, rejected⟩ := Http.Service.rejected_of_sender own.path own.sort
        (List.mem_singleton_self _) nofun own.sender (Http.Service.short_of_mem_referenceItems member) failed'
      rw [ran] at rejected
      exact ⟨error, rejected⟩
  · intro objects references asks plain
    obtain ⟨succeeded, left⟩ := own.succeeded_iff asks ran
    obtain ⟨passes, same⟩ := pushes objects references
    refine ⟨succeeded.trans passes, fun done => ?_⟩
    rw [← left done]
    exact same (succeeded.1 done)
  · intro name key hash previous member
    have later : (History.ofActions (actions ++ [.ask service request])).work = after := by
      rw [History.work_append, List.foldl_cons, List.foldl_nil, Action.act, ran]
    rw [← later] at member
    exact History.told member

namespace History

/-- An item that points a name at a short hash, all of whose bytes are the same. -/
def sampleUpdate (name : Json) (byte : UInt8) : Json :=
  .object [("name", name), ("hash", .string (Hex.encode (List.replicate 20 byte)))]

/-- A push by the owner that updates references. -/
def sampleUpdates (updates : List Json) : Http.Request :=
  { sampleDeletions with body := Json.toBytes (.object [("refs", .array updates)]) }

/-- A deletion, and a number that is pointed at something. -/
def sampleMisnomer : Http.Request :=
  sampleUpdates [sampleUpdate (.string "b") 0, sampleUpdate (.int 5) 1]

/-- The number is not let through, and the deletion is undone. -/
theorem push_names_checked_sample :
    sampleService.PushesOwn sampleMisnomer (ofActions sample).work.content sampleRepository ∧
      ∃ error after, (sampleService.respond sampleMisnomer).run (ofActions sample).work =
          (Http.Service.rejection error, after) ∧
        after.content = (ofActions sample).work.content ∧ after.events = (ofActions sample).work.events := by
  have own : sampleService.PushesOwn sampleMisnomer (ofActions sample).work.content sampleRepository :=
    ⟨by decide +kernel, by decide, by decide +kernel, by rfl, by decide⟩
  rcases ran : (sampleService.respond sampleMisnomer).run (ofActions sample).work with ⟨response, after⟩
  obtain ⟨item, member, named⟩ : ∃ item ∈ sampleMisnomer.referenceItems,
      (!isValidName (Http.field item "name") && (Hash.ofJson (Http.field item "hash")).toOption.any
        (!Hash.isZero ·)) = true := List.any_eq_true.1 (by decide +kernel)
  obtain ⟨invalid, nonzero⟩ := Bool.and_eq_true_iff.1 named
  obtain ⟨checked, _⟩ := push_names_checked sample sampleService sampleMisnomer sampleRepository response
    after own ran
  obtain ⟨⟨error, rfl⟩, kept⟩ := checked item member (by simpa using invalid) fun hash hashed unchecked => by
    rw [hashed] at nonzero
    simp [Except.toOption, unchecked.1] at nonzero
  exact ⟨own, error, after, rfl, kept⟩

/-- The short history, after which there is a reference whose name is a numeral. -/
def numbered : List Action :=
  sample ++ [.perform "main" (.call (.inRepository (.string "depot")
    (.upsert (.string "5") (Hash.digest .sha256 [1]))))]

/-- A number in a push deletes the reference with the numeral, and an event tells of the number. -/
theorem push_number_deletes :
    let request := sampleUpdates [sampleUpdate (.int 5) 0]
    let answered := (sampleService.respond request).run (ofActions numbered).work
    (∃ repository, sampleService.PushesOwn request (ofActions numbered).work.content repository) ∧
      (∃ item ∈ request.referenceItems, isValidName (Http.field item "name") = false) ∧
      answered.1.succeeded ∧ answered.2.content ≠ (ofActions numbered).work.content ∧
      ∃ name key hash previous, .referenceChanged name key hash previous ∈ answered.2.events ∧
        isValidName key = false := by
  intro request answered
  have told : answered.2.events.any (fun
      | .referenceChanged _ key _ _ => !isValidName key
      | .objectAdded _ _ => false) = true := by decide +kernel
  obtain ⟨event, member, invalid⟩ := List.any_eq_true.1 told
  have misnamed : request.referenceItems.any (fun item =>
    !isValidName (Http.field item "name")) = true := by decide +kernel
  obtain ⟨item, listed, misnamed⟩ := List.any_eq_true.1 misnamed
  have own : sampleService.PushesOwn request (ofActions numbered).work.content { sampleRepository with
      references := sampleRepository.references ++ [⟨2, "5", Hash.digest .sha256 [1]⟩] } :=
    ⟨by decide +kernel, by decide, by decide +kernel, by rfl, by decide⟩
  refine ⟨⟨_, own⟩, ⟨item, listed, by simpa using misnamed⟩, by decide +kernel, by decide +kernel, ?_⟩
  cases event with
  | objectAdded => cases invalid
  | referenceChanged name key hash previous =>
    exact ⟨name, key, hash, previous, member, by simpa using invalid⟩

end History

end ObjectDepot
