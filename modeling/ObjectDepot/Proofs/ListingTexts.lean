import ObjectDepot.Client.Listing
import ObjectDepot.Proofs.Anchors
import ObjectDepot.Proofs.Credentials
import ObjectDepot.Proofs.Refusals

/-!
# Listings read off their texts

`readListing` takes the text of a listing apart again: the first character of a line tells its kind, a
hash has sixty-four digits, and neither the name of a symbolic reference nor the key of an entry holds a
space. What a service shows of a repository is `Legible`, so its text determines it (`listing_read_back`).
-/

namespace ObjectDepot

open Http

namespace Client

/-- Reads the line of a reference: sixty-four digits, a space and the name. -/
def readReference? (line : List Char) : Option (String × Bytes) :=
  if line.head? = some '@' ∨ line.head? = some ':' then none
  else
    match Hex.decode (String.ofList (line.take 64)), line.drop 64 with
    | .ok hash, ' ' :: name => some (String.ofList name, hash)
    | _, _ => none

/-- Reads the line of a symbolic reference: the name follows the last space. -/
def readSymbolic? : List Char → Option (String × String)
  | '@' :: line =>
    let (name, target) := cutAt ' ' line.reverse
    some (String.ofList name.reverse, String.ofList target.reverse)
  | _ => none

/-- Reads the line of a key-value entry: the key ends at the first space. -/
def readKeyValue? : List Char → Option (String × String)
  | ':' :: line =>
    let (key, value) := cutAt ' ' line
    some (String.ofList key, String.ofList value)
  | _ => none

/-- Reads the text of a listing line by line. -/
def readListing (text : String) : Listing :=
  let lines := text.toList.splitOn '\n'
  ⟨lines.filterMap readReference?, lines.filterMap readSymbolic?, lines.filterMap readKeyValue?⟩

/-- The line of a reference, which has no mark. -/
def referenceLine (row : String × Bytes) : String :=
  "" ++ Hex.encode row.2 ++ " " ++ row.1

/-- The line of a symbolic reference. -/
def symbolicLine (row : String × String) : String :=
  "@" ++ row.2 ++ " " ++ row.1

/-- The line of a key-value entry. -/
def keyValueLine (row : String × String) : String :=
  ":" ++ row.1 ++ " " ++ row.2

/-- The lines of a listing. -/
def lines (listing : Listing) : List String :=
  listing.normal.map referenceLine ++ listing.symbolic.map symbolicLine ++
    listing.keyValue.map keyValueLine

/-- A listing whose text can be read: it has a line, its hashes are full, and what stands before a
separator does not hold it. -/
structure Legible (listing : Listing) : Prop where
  full : listing.symbolic ≠ []
  normal : ∀ row ∈ listing.normal, row.2.length = 32 ∧ '\n' ∉ row.1.toList
  symbolic : ∀ row ∈ listing.symbolic, ' ' ∉ row.1.toList ∧ '\n' ∉ row.1.toList ∧ '\n' ∉ row.2.toList
  keyValue : ∀ row ∈ listing.keyValue, ' ' ∉ row.1.toList ∧ '\n' ∉ row.1.toList ∧ '\n' ∉ row.2.toList

variable {listing : Listing} {row : String × String} {text : List Char}

/-! ## Printing -/

/-- The entries under a key are printed row by row. -/
lemma listingLines_eq {α : Type} {body : Json} {key mark first second : String} {rows : List α}
    {item : α → Json} {before after : α → String}
    (listed : entry body key = .ok (.array (rows.map item)))
    (left : ∀ row, entry (item row) first = .ok (.string (before row)))
    (right : ∀ row, entry (item row) second = .ok (.string (after row))) :
    listingLines body key mark first second =
      .ok (rows.map fun row => mark ++ before row ++ " " ++ after row) := by
  have line : ∀ row, (do
      let before ← entry (item row) first
      let after ← entry (item row) second
      return mark ++ before.plain ++ " " ++ after.plain : Except ValueFault String) =
        pure (mark ++ before row ++ " " ++ after row) := by
    intro row
    rw [left, right]
    rfl
  have rest : (rows.map item).mapM (fun item => do
      let before ← entry item first
      let after ← entry item second
      return mark ++ before.plain ++ " " ++ after.plain : Json → Except ValueFault String) =
        pure (rows.map fun row => mark ++ before row ++ " " ++ after row) := by
    rw [List.mapM_map, ← List.mapM_pure]
    exact congrArg (rows.mapM ·) (funext line)
  rw [listingLines, listed]
  exact rest

/-- The listing in an answer is printed. -/
lemma listingText_body (listing : Listing) :
    listingText (listingBody listing) = .ok ("\n".intercalate (lines listing)) := by
  have normal : listingLines (listingBody listing) "normal" "" "hash" "name" =
    .ok (listing.normal.map referenceLine) := listingLines_eq rfl (fun _ => rfl) fun _ => rfl
  have symbolic : listingLines (listingBody listing) "symbolic" "@" "target" "name" =
    .ok (listing.symbolic.map symbolicLine) := listingLines_eq rfl (fun _ => rfl) fun _ => rfl
  have keyValue : listingLines (listingBody listing) "kv" ":" "key" "value" =
    .ok (listing.keyValue.map keyValueLine) := listingLines_eq rfl (fun _ => rfl) fun _ => rfl
  rw [listingText, normal, symbolic, keyValue]
  rfl

/-! ## Reading -/

/-- The line of a reference starts with a digit. -/
lemma head?_referenceLine {row : String × Bytes} (full : row.2.length = 32) :
    ∃ c ∈ Hex.digits, (referenceLine row).toList.head? = some c := by
  cases written : (Hex.encode row.2).toList with
  | nil =>
    have size := Hex.length_encode row.2
    rw [← String.length_toList, written, full] at size
    cases size
  | cons c digits =>
    have member : c ∈ (Hex.encode row.2).toList := by
      rw [written]
      exact .head _
    refine ⟨c, Hex.mem_encode member, ?_⟩
    simp [referenceLine, written]

/-- The line of a symbolic reference starts with an at sign. -/
lemma head?_symbolicLine (row : String × String) : (symbolicLine row).toList.head? = some '@' := by
  simp [symbolicLine]

/-- The line of a key-value entry starts with a colon. -/
lemma head?_keyValueLine (row : String × String) : (keyValueLine row).toList.head? = some ':' := by
  simp [keyValueLine]

/-- A digit is no mark. -/
lemma unmarked {c : Char} (member : c ∈ Hex.digits) : some c ≠ some '@' ∧ some c ≠ some ':' := by
  have all : ∀ c ∈ Hex.digits, some c ≠ some '@' ∧ some c ≠ some ':' :=
    List.all_iff_forall_prop.1 (by decide)
  exact all c member

/-- No other line is read as a symbolic reference. -/
lemma readSymbolic?_of_head (other : text.head? ≠ some '@') : readSymbolic? text = none := by
  unfold readSymbolic?
  split
  · exact absurd rfl other
  · rfl

/-- No other line is read as a key-value entry. -/
lemma readKeyValue?_of_head (other : text.head? ≠ some ':') : readKeyValue? text = none := by
  unfold readKeyValue?
  split
  · exact absurd rfl other
  · rfl

/-- The line of a reference is read back. -/
lemma readReference?_referenceLine {row : String × Bytes} (full : row.2.length = 32) :
    readReference? (referenceLine row).toList = some row := by
  obtain ⟨c, member, head⟩ := head?_referenceLine full
  have size : (Hex.encode row.2).toList.length = 64 := by
    rw [String.length_toList, Hex.length_encode, full]
  have whole : (referenceLine row).toList = (Hex.encode row.2).toList ++ ' ' :: row.1.toList := by
    simp [referenceLine]
  rw [readReference?, head, if_neg (not_or.2 (unmarked member)), whole, List.take_left' size,
    List.drop_left' size, String.ofList_toList, Hex.decode_encode]
  simp only [String.ofList_toList]

/-- The line of a symbolic reference is read back, if its target has no blank. -/
lemma readSymbolic?_symbolicLine (solid : ' ' ∉ row.1.toList) :
    readSymbolic? (symbolicLine row).toList = some row := by
  have cut : cutAt ' ' (row.2.toList ++ ' ' :: row.1.toList).reverse =
      (row.1.toList.reverse, row.2.toList.reverse) := by
    refine cutAt_eq_iff.2 ⟨by rwa [List.mem_reverse], .inl ?_⟩
    simp
  have whole : (symbolicLine row).toList = '@' :: (row.2.toList ++ ' ' :: row.1.toList) := by
    simp [symbolicLine]
  rw [whole, readSymbolic?, cut]
  simp only [List.reverse_reverse, String.ofList_toList]

/-- The line of a key-value entry is read back, if its key has no blank. -/
lemma readKeyValue?_keyValueLine (solid : ' ' ∉ row.1.toList) :
    readKeyValue? (keyValueLine row).toList = some row := by
  have cut : cutAt ' ' (row.1.toList ++ ' ' :: row.2.toList) = (row.1.toList, row.2.toList) :=
    cutAt_eq_iff.2 ⟨solid, .inl rfl⟩
  have whole : (keyValueLine row).toList = ':' :: (row.1.toList ++ ' ' :: row.2.toList) := by
    simp [keyValueLine]
  rw [whole, readKeyValue?, cut]
  simp only [String.ofList_toList]

/-- Rows are read from the lines that are theirs. -/
lemma filterMap_own {α : Type} {rows : List α} {line : α → String} {read : List Char → Option α}
    (known : ∀ row ∈ rows, read (line row).toList = some row) :
    ((rows.map line).map String.toList).filterMap read = rows := by
  rw [List.map_map, List.filterMap_map]
  exact (List.filterMap_congr known).trans List.filterMap_some

/-- No rows are read from the lines of others. -/
lemma filterMap_foreign {α β : Type} {rows : List α} {line : α → String} {read : List Char → Option β}
    (foreign : ∀ row ∈ rows, read (line row).toList = none) :
    ((rows.map line).map String.toList).filterMap read = [] := by
  rw [List.map_map, List.filterMap_map, List.filterMap_eq_nil_iff]
  exact foreign

/-- The lines of a legible listing are single lines. -/
lemma Legible.flat (legible : Legible listing) : ∀ line ∈ lines listing, '\n' ∉ line.toList := by
  have digits : ∀ hash, '\n' ∉ (Hex.encode hash).toList := fun hash member =>
    absurd (Hex.mem_encode member) (by decide)
  simp only [lines, List.forall_mem_append, List.forall_mem_map]
  refine ⟨⟨fun row member => ?_, fun row member => ?_⟩, fun row member => ?_⟩
  · have name := (legible.normal row member).2
    simp [referenceLine, digits, name]
  · obtain ⟨_, name, target⟩ := legible.symbolic row member
    simp [symbolicLine, name, target]
  · obtain ⟨_, key, value⟩ := legible.keyValue row member
    simp [keyValueLine, key, value]

/-- The text of a listing is split into its lines again. -/
lemma Legible.splitOn (legible : Legible listing) :
    ("\n".intercalate (lines listing)).toList.splitOn '\n' = (lines listing).map String.toList := by
  have filled : (lines listing).map String.toList ≠ [] := by
    simp [lines, legible.full]
  rw [String.toList_intercalate]
  exact List.splitOn_intercalate '\n' (List.forall_mem_map.2 legible.flat) filled

/-- What is read of a listing is read of each of its three parts. -/
lemma filterMap_lines {α : Type} (read : List Char → Option α) (listing : Listing) :
    ((lines listing).map String.toList).filterMap read =
      ((listing.normal.map referenceLine).map String.toList).filterMap read ++
        ((listing.symbolic.map symbolicLine).map String.toList).filterMap read ++
        ((listing.keyValue.map keyValueLine).map String.toList).filterMap read := by
  simp only [lines, List.map_append, List.filterMap_append]

/-- A legible listing is read back from its text. -/
lemma Legible.readListing (legible : Legible listing) :
    readListing ("\n".intercalate (lines listing)) = listing := by
  have digit : ∀ row ∈ listing.normal, (referenceLine row).toList.head? ≠ some '@' ∧
      (referenceLine row).toList.head? ≠ some ':' := by
    intro row member
    obtain ⟨c, digit, head⟩ := head?_referenceLine (legible.normal row member).1
    rw [head]
    exact unmarked digit
  have normal : ((lines listing).map String.toList).filterMap readReference? = listing.normal := by
    rw [filterMap_lines,
      filterMap_own fun row member => readReference?_referenceLine (legible.normal row member).1,
      filterMap_foreign fun row _ => if_pos (.inl (head?_symbolicLine row)),
      filterMap_foreign fun row _ => if_pos (.inr (head?_keyValueLine row)),
      List.append_nil, List.append_nil]
  have symbolic : ((lines listing).map String.toList).filterMap readSymbolic? = listing.symbolic := by
    rw [filterMap_lines,
      filterMap_foreign fun row member => readSymbolic?_of_head (digit row member).1,
      filterMap_own fun row member => readSymbolic?_symbolicLine (legible.symbolic row member).1,
      filterMap_foreign fun row _ => readSymbolic?_of_head (by simp [head?_keyValueLine row]),
      List.nil_append, List.append_nil]
  have keyValue : ((lines listing).map String.toList).filterMap readKeyValue? = listing.keyValue := by
    rw [filterMap_lines,
      filterMap_foreign fun row member => readKeyValue?_of_head (digit row member).2,
      filterMap_foreign fun row _ => readKeyValue?_of_head (by simp [head?_symbolicLine row]),
      filterMap_own fun row member => readKeyValue?_keyValueLine (legible.keyValue row member).1,
      List.nil_append, List.nil_append]
  rw [Client.readListing, legible.splitOn]
  simp only [normal, symbolic, keyValue]

end Client

/-! ## What a service shows -/

/-- No line feed stands in the name of a reference or in the target of a symbolic one. -/
structure Listing.Flat (listing : Listing) : Prop where
  names : ∀ row ∈ listing.normal, '\n' ∉ row.1.toList
  targets : ∀ row ∈ listing.symbolic, '\n' ∉ row.2.toList

/-- What a service answers, after some history, when it is asked for the references of a repository, and
the listing of this repository. -/
inductive Shown : Json → Listing → Prop where
  | answer (actions : List Action) (service : Service) (request : Request) (name : String)
      (repository : Repository) (body : Json) :
    Endpoint.ofPath? (pathOf request.target) = some (.repository name .references) →
    Method.ofName? request.method = some .get →
    (History.ofActions actions).work.content.find? name = some repository →
    ((service.respond request).run (History.ofActions actions).work).1 = .json 200 body →
    Shown body repository.listing

variable {body : Json} {listing : Listing}

/-- Whoever asks for the references of a repository is answered with its listing. -/
lemma Http.Service.respond_references {service : Service} {request : Request} {name : String}
    {repository : Repository} {work : Work Store}
    (path : Endpoint.ofPath? (pathOf request.target) = some (.repository name .references))
    (sort : Method.ofName? request.method = some .get)
    (present : work.content.find? name = some repository) :
    ((service.respond request).run work).1 = .json 200 (listingBody repository.listing) := by
  have allowed : Method.get ∈ Resource.references.methods := by decide
  have handled : (service.handleResource request .get .references).run { work with content := repository } =
    (.ok ⟨200, listingBody repository.listing⟩, { work with content := repository }) := rfl
  exact Service.respond_of_handleResource path sort allowed present handled

/-- What is shown is the listing. -/
lemma Shown.body_eq (shown : Shown body listing) : body = listingBody listing := by
  obtain ⟨_, _, _, _, _, _, path, sort, present, answered⟩ := shown
  rw [Service.respond_references path sort present] at answered
  exact (Response.json.inj answered).2.symm

/-- The hashes of the references in a history are full. -/
lemma History.full_hashes {actions : List Action} {repository : Repository}
    (present : repository ∈ (ofActions actions).work.content.repositories) :
    ∀ row ∈ repository.listing.normal, row.2.length = 32 := by
  intro row listed
  have lists := invariant Repository.lists_invariant actions repository present
  have addressed := invariant Repository.addressed_invariant actions repository present
  have anchored := invariant Repository.anchored_invariant actions repository present
  rw [lists.listing] at listed
  obtain ⟨_, had⟩ := anchored.get (lists.get listed)
  exact (addressed.get had).2.1

/-- Flat listings that are shown are legible. -/
lemma Shown.legible (shown : Shown body listing) (flat : listing.Flat) : Client.Legible listing := by
  obtain ⟨_, _, _, _, _, _, _, _, present, _⟩ := shown
  have full := History.full_hashes (Store.mem_of_find? present).1
  have head : ' ' ∉ "HEAD".toList ∧ '\n' ∉ "HEAD".toList := by decide
  have format : ' ' ∉ "object-format".toList ∧ '\n' ∉ "object-format".toList := by decide
  refine ⟨List.cons_ne_nil _ _, fun row listed => ⟨full row listed, flat.names row listed⟩,
    fun row listed => ?_, fun row listed => ?_⟩
  · have target := flat.targets row listed
    obtain rfl := List.mem_singleton.1 listed
    exact ⟨head.1, head.2, target⟩
  · obtain rfl := List.mem_singleton.1 listed
    have plain : ∀ algorithm : Algorithm, '\n' ∉ algorithm.name.toList := by
      rintro (_ | _) <;> decide
    exact ⟨format.1, format.2, plain _⟩

/-- The text of a listing determines it: what a service shows of a repository is printed, and read back
from the text if no line feed stands in its names and targets. -/
theorem listing_read_back (body body' : Json) (listing listing' : Listing) (shown : Shown body listing)
    (shown' : Shown body' listing') (flat : listing.Flat) (flat' : listing'.Flat) :
    ∃ text, Client.listingText body = .ok text ∧ Client.readListing text = listing ∧
      (Client.listingText body' = .ok text → listing' = listing ∧ body' = body) := by
  refine ⟨_, shown.body_eq ▸ Client.listingText_body listing, (shown.legible flat).readListing, ?_⟩
  rw [shown'.body_eq, Client.listingText_body]
  intro same
  have equal : listing' = listing := by
    rw [← (shown.legible flat).readListing, ← Except.ok.inj same, (shown'.legible flat').readListing]
  exact ⟨equal, by rw [shown.body_eq, equal]⟩

namespace History

/-- The references of the repository in the short history are asked for. -/
def listingRequest : Request where
  method := "GET"
  target := "/api/git/depot/refs"
  login := none
  authorization := ""
  body := []

/-- What the first action of the short history makes of its repository. -/
def bareRepository : Repository :=
  { sampleRepository with objects := [], references := [] }

/-- After the short history the listing is read back, and another text than after its first action. -/
theorem listing_read_back_sample :
    ∃ text, Client.listingText (listingBody sampleRepository.listing) = .ok text ∧
      Client.readListing text = sampleRepository.listing ∧
      Client.listingText (listingBody bareRepository.listing) ≠ .ok text := by
  have path : Endpoint.ofPath? (pathOf listingRequest.target) =
    some (.repository "depot" .references) := by decide +kernel
  have sort : Method.ofName? listingRequest.method = some .get := by decide +kernel
  have created : (ofActions (sample.take 1)).work.content.find? "depot" =
    some bareRepository := by decide +kernel
  have shown := Shown.answer sample sampleService listingRequest "depot" _ _ path sort find?_sample
    (Service.respond_references path sort find?_sample)
  have fresh := Shown.answer (sample.take 1) sampleService listingRequest "depot" _ _ path sort created
    (Service.respond_references path sort created)
  obtain ⟨text, printed, read, apart⟩ := listing_read_back _ _ _ _ shown fresh
    ⟨by decide +kernel, by decide +kernel⟩ ⟨by decide +kernel, by decide +kernel⟩
  refine ⟨text, printed, read, fun same => ?_⟩
  exact absurd (apart same).1 (by decide +kernel)

end History

end ObjectDepot
