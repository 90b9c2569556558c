/-
**What is written into a map.**

A map is known by its place on the heap, and whoever holds the place writes the same map. Methods
and assignments are the only ways to write it, and everything else that a template does leaves it as
it is. So what a map holds at any time follows from what it was made with and from the changes since
then, in their order.

* `Change`: the ways to write a map, `Change.perform`; what they write, `Change.events`;
* `perform_eq`: what a change makes of the heap;
* `Origin`: the maps that a map literal makes and those that a document brings;
* `Course`: a journal of the changes to a map since it was made;
* `Course.records`: the map holds what the journal says;
* `Course.execute`: a template, whatever it does, only continues the journal of every map.
-/

import FieldResolver.Proofs.Journal
import FieldResolver.Proofs.Template.Frames
import FieldResolver.Proofs.Template.Memory

namespace FieldResolver.Template

open Run

/-! ### Changes -/

/-- The ways to write a map. -/
inductive Change where
  | put (key value : Value)
  | putAll (source : Nat)
  | remove (key : Value)
  | clear
  | property (name : String) (value : Value)
  | element (key value : Value)

namespace Change

/-- The value that a change has for a key. -/
def key? : Change → Option Value
  | .put key _ | .remove key | .element key _ => some key
  | .putAll _ | .clear | .property _ _ => none

/-- Whether a change has something for a key, where it needs one. -/
def Keyed (change : Change) : Prop := ∀ key ∈ change.key?, key.isNothing = false

/-- What makes a change to the map at a place: a call of a method, or an assignment. -/
def perform (place : Nat) : Change → Run Unit
  | .put key value => (fun _ => ()) <$> callMethod (.map place) "put" [key, value]
  | .putAll source => (fun _ => ()) <$> callMethod (.map place) "putAll" [.map source]
  | .remove key => (fun _ => ()) <$> callMethod (.map place) "remove" [key]
  | .clear => (fun _ => ()) <$> callMethod (.map place) "clear" []
  | .property name value => assignProperty (.map place) name value
  | .element key value => assignElement (.map place) key value

/-- What a change writes. The key is the text of the value for it, however the key is written. -/
def events (heap : Heap) : Change → Journal Value
  | .put key value | .element key value => [.written (heap.text key) value]
  | .putAll source => Journal.writing (heap.map source)
  | .remove key => [.removed (heap.text key)]
  | .clear => [.cleared]
  | .property name value => [.written name value]

end Change

section

variable {key : Value}

theorem keyArgument_eq (heap : Heap) (method : String) (something : key.isNothing = false)
    (rest : List Value) : keyArgument heap method (key :: rest) = .ok (heap.text key) := by
  simp [keyArgument, something]

theorem keyArgument_nothing (heap : Heap) (method : String) (nothing : key.isNothing = true)
    (rest : List Value) : keyArgument heap method (key :: rest) = .error (.nullKey method) := by
  simp [keyArgument, nothing]

/-- What is something is written as its text. -/
theorem rendered_eq (heap : Heap) (something : key.isNothing = false) :
    heap.rendered key = heap.text key := by
  simp [Heap.rendered, something]

/-- **What a change makes of the heap.** -/
theorem perform_eq {change : Change} (keyed : change.Keyed) (place : Nat) (state : State) :
    change.perform place state =
      .ok () { state with
        heap := state.heap.setMap place
          (Journal.replay (change.events state.heap) (state.heap.map place)) } := by
  cases change with
  | put key value =>
    have found := keyArgument_eq state.heap "put" (keyed key rfl) [value]
    show EStateM.map _ (EStateM.bind (Run.ofExcept (keyArgument state.heap "put" [key, value])) _)
      state = _
    rw [found]
    rfl
  | remove key =>
    have found := keyArgument_eq state.heap "remove" (keyed key rfl) []
    show EStateM.map _ (EStateM.bind (Run.ofExcept (keyArgument state.heap "remove" [key])) _)
      state = _
    rw [found]
    rfl
  | element key value =>
    show (if key.isNothing then _ else Run.setMap place _ : Run Unit) state = _
    rw [keyed key rfl, rendered_eq state.heap (keyed key rfl)]
    rfl
  | putAll source =>
    rw [Change.events, Journal.replay_writing]
    rfl
  | clear | property => rfl

/-- Nothing is no key: such a change is refused, and nothing is written. -/
theorem perform_nothing {change : Change} (about : key ∈ change.key?)
    (nothing : key.isNothing = true) (place : Nat) (state : State) :
    ∃ cause, change.perform place state = .error (.fault cause) state := by
  cases change with
  | put other value =>
    cases about
    have refused := keyArgument_nothing state.heap "put" nothing [value]
    refine ⟨.nullKey "put", ?_⟩
    show EStateM.map _ (EStateM.bind (Run.ofExcept (keyArgument state.heap "put" [key, value])) _)
      state = _
    rw [refused]
    rfl
  | remove other =>
    cases about
    have refused := keyArgument_nothing state.heap "remove" nothing []
    refine ⟨.nullKey "remove", ?_⟩
    show EStateM.map _ (EStateM.bind (Run.ofExcept (keyArgument state.heap "remove" [key])) _)
      state = _
    rw [refused]
    rfl
  | element other value =>
    cases about
    refine ⟨.assignIndex .map, ?_⟩
    show (if key.isNothing then _ else Run.setMap place _ : Run Unit) state = _
    rw [nothing]
    rfl
  | putAll | clear | property => cases about

end

/-! ### Steps that leave a map alone -/

/-- Whether a map that is on a heap is the same on a later one. -/
structure Heap.KeepsMap (place : Nat) (before after : Heap) : Prop where
  maps_le : before.maps.size ≤ after.maps.size
  map_eq : place < before.maps.size → after.map place = before.map place

section

variable {place : Nat} {before middle after : Heap}

instance : Std.Refl (Heap.KeepsMap place) := ⟨fun _ => ⟨le_rfl, fun _ => rfl⟩⟩

instance : IsTrans Heap (Heap.KeepsMap place) :=
  ⟨fun _ _ _ first second => ⟨first.maps_le.trans second.maps_le, fun known =>
    (second.map_eq (known.trans_le first.maps_le)).trans (first.map_eq known)⟩⟩

theorem Heap.Extends.keepsMap (more : before.Extends after) : before.KeepsMap place after where
  maps_le := more.maps_le
  map_eq := more.map_eq place

/-- Making containers and writing lists leaves every map alone. -/
theorem keepsMap_builds (place : Nat) : Builds State.heap (Heap.KeepsMap place) where
  lists items state := (Heap.extends_allocList state.heap items).keepsMap
  maps entries state := (Heap.extends_allocMap state.heap entries).keepsMap
  documents document state := (Heap.ofJson_extends state.heap document).keepsMap
  writes _ _ _ := ⟨le_rfl, fun _ => rfl⟩

/-- Writing another map leaves a map alone. -/
theorem keepsMap_setMap {other : Nat} (different : other ≠ place) (entries : Dict Value) :
    Relates State.heap (Heap.KeepsMap place) (setMap other entries) := by
  refine fun state => ⟨?_, fun _ => Heap.map_setMap_of_ne state.heap entries different⟩
  show state.heap.maps.size ≤ (state.heap.maps.setIfInBounds other entries).size
  simp

end

/-! ### How maps are made -/

section

variable (environment : Environment)

/-- The entries of a map literal in the order in which it writes them, keys as often as they are
written. -/
def literalEntries : List Entry → State → List (String × Value)
  | [], _ => []
  | .mk key value :: rest, state =>
    match evaluate environment key state with
    | .error .. => []
    | .ok key middle =>
      match evaluate environment value middle with
      | .error .. => []
      | .ok value after => (after.heap.text key, value) :: literalEntries rest after

/-- The maps that map literals make and those that documents bring, with what was written into
them. -/
inductive Origin (place : Nat) : Journal Value → State → Prop
  /-- A map literal makes a map. -/
  | literal {entries : List Entry} {before made : State}
      (evaluated : evaluate environment (.map entries) before = .ok (.map place) made) :
      Origin place (Journal.writing (literalEntries environment entries before)) made
  /-- A document that is an object brings a map. -/
  | document {document : Value} {fields : Dict Json} {before made : State}
      (parsed : Json.parse (before.heap.text document) = .ok (.object fields))
      (given : Function.callIn environment .util "parseJson" [document] before =
        .ok (.map place) made) :
      Origin place (Journal.writing (before.heap.ofFields fields).1) made
  /-- A document brings a map for every object within it. -/
  | part {arguments : List Value} {value : Value} {before made : State}
      (given : Function.callIn environment .util "parseJson" arguments before = .ok value made)
      (new : before.heap.maps.size ≤ place) (known : place < made.heap.maps.size) :
      Origin place (Journal.writing (made.heap.map place)) made

end

section

variable {environment : Environment} {place : Nat} {before made : State}

/-- The entries that a map literal makes are those written, one after another. -/
theorem evaluateEntries_eq {entries : List Entry} {sofar written : Dict Value}
    (evaluated : evaluateEntries environment sofar entries before = .ok written made) :
    written = sofar.insertAll (literalEntries environment entries before) := by
  induction entries generalizing sofar before with
  | nil =>
    cases evaluated
    rfl
  | cons entry rest ih =>
    obtain ⟨key, value⟩ := entry
    obtain ⟨key, middle, first, evaluated⟩ := bind_ok evaluated
    cases something : key.isNothing with
    | true =>
      rw [something] at evaluated
      cases evaluated
    | false =>
      rw [something] at evaluated
      obtain ⟨value, after, second, evaluated⟩ := bind_ok evaluated
      obtain ⟨_, _, ⟨⟩, evaluated⟩ := bind_ok evaluated
      rw [rendered_eq after.heap something] at evaluated
      simp only [literalEntries, first, second]
      exact ih evaluated

/-- What a function that only computes gives comes from what it computes. -/
theorem placeIn_ok {group : Namespace} {name : String} {result : Function.Result} {value : Value}
    (given : Function.place group name result before = .ok value made) :
    ∃ outcome, result = .ok outcome ∧ outcome.place before = .ok value made := by
  cases result with
  | error cause => cases given
  | ok outcome => exact ⟨outcome, rfl, given⟩

/-- `$util.parseJson` reads the text of its argument. -/
theorem callIn_parseJson (arguments : List Value) :
    Function.callIn environment .util "parseJson" arguments before =
      Function.place .util "parseJson" (do
        let text ← Function.Call.text ⟨before.heap, arguments⟩ 0
        let document ← (Json.parse text).mapError .invalidJson
        return .json document) before :=
  Function.callIn_util environment rfl

/-- What `$util.parseJson` gives is what its text writes. -/
theorem parseJson_ok {arguments : List Value} {value : Value}
    (given : Function.callIn environment .util "parseJson" arguments before = .ok value made) :
    ∃ text document, Function.Call.text ⟨before.heap, arguments⟩ 0 = .ok text ∧
      Json.parse text = .ok document ∧
      value = (before.heap.ofJson document).1 ∧ made.heap = (before.heap.ofJson document).2 := by
  rw [callIn_parseJson] at given
  obtain ⟨outcome, computed, placed⟩ := placeIn_ok given
  obtain ⟨text, read, computed⟩ := Fallible.bind_ok computed
  obtain ⟨document, parsed, computed⟩ := Fallible.bind_ok computed
  cases computed
  cases placed
  exact ⟨text, document, read, Fallible.mapError_ok parsed, rfl, rfl⟩

/-- The text of a value is its first argument's. -/
theorem callText_ok {heap : Heap} {argument : Value} {text : String}
    (read : Function.Call.text ⟨heap, [argument]⟩ 0 = .ok text) : text = heap.text argument := by
  cases something : argument.isNothing with
  | true => simp [Function.Call.text, Function.Call.text?, Function.Call.value, something] at read
  | false =>
    simp only [Function.Call.text, Function.Call.text?, Function.Call.value, List.getD_cons_zero,
      something, Bool.false_eq_true, if_false, Except.ok.injEq] at read
    exact read.symm

/-- A text is read without repeated keys. -/
theorem parse_merged {text : String} {document : Json} (parsed : Json.parse text = .ok document) :
    document.merged = document := by
  obtain ⟨written, _, rfl⟩ := Fallible.map_ok (Fallible.mapError_ok parsed)
  exact Json.merged_merged written

/-- A map is on the heap once it is made, and holds what was written into it. -/
theorem Origin.records {journal : Journal Value} (origin : Origin environment place journal made) :
    place < made.heap.maps.size ∧ Journal.Records journal (made.heap.map place) := by
  cases origin with
  | literal evaluated =>
    obtain ⟨written, middle, first, evaluated⟩ := bind_ok evaluated
    cases evaluated
    refine ⟨by simp, ?_⟩
    show Journal.Records _ ((middle.heap.allocMap written).2.map middle.heap.maps.size)
    rw [Heap.map_allocMap, evaluateEntries_eq first]
    exact Journal.records_writing _
  | @document document fields before _ parsed given =>
    obtain ⟨text, value, read, written, here, put⟩ := parseJson_ok given
    rw [callText_ok read, parsed] at written
    cases written
    cases here
    have stored := Heap.map_allocMap (before.heap.ofFields fields).2
      (before.heap.ofFields fields).1
    have once := (Json.merged_object_eq_iff.mp (parse_merged parsed)).1
    rw [← before.heap.keys_ofFields] at once
    rw [put]
    refine ⟨by simp [Heap.ofJson, Heap.allocMap], ?_⟩
    exact stored.symm ▸ Journal.records_of_distinct once
  | part given new known =>
    obtain ⟨text, document, _, parsed, _, put⟩ := parseJson_ok given
    refine ⟨known, Journal.records_of_distinct ?_⟩
    rw [put]
    exact Heap.ofJson_distinct _ (parse_merged parsed) place new

end

/-! ### Courses of maps -/

/-- What was written into the map at a place since it was made, up to a heap. -/
inductive Course (environment : Environment) (place : Nat) : Journal Value → Heap → Prop
  | begins {journal : Journal Value} {made : State}
      (origin : Origin environment place journal made) : Course environment place journal made.heap
  /-- Whatever leaves the map alone. -/
  | aside {journal : Journal Value} {before after : Heap}
      (course : Course environment place journal before) (kept : before.KeepsMap place after) :
      Course environment place journal after
  /-- A change, whichever way leads to the map. -/
  | changes {journal : Journal Value} {state : State}
      (course : Course environment place journal state.heap) {change : Change}
      (keyed : change.Keyed) :
      Course environment place (change.events state.heap ++ journal)
        ((change.perform place).after state).heap

section

variable {environment : Environment} {place : Nat}

/-- **A map holds what was written into it**, and is never lost. -/
theorem Course.records {journal : Journal Value} {heap : Heap}
    (course : Course environment place journal heap) :
    place < heap.maps.size ∧ Journal.Records journal (heap.map place) := by
  induction course with
  | begins origin => exact origin.records
  | aside _ kept ih =>
    obtain ⟨known, records⟩ := ih
    exact ⟨known.trans_le kept.maps_le, (kept.map_eq known).symm ▸ records⟩
  | @changes journal state _ change keyed ih =>
    obtain ⟨known, records⟩ := ih
    rw [Run.after, perform_eq keyed]
    refine ⟨by simpa [Heap.setMap] using known, ?_⟩
    rw [Heap.map_setMap_self _ _ known]
    exact records.replay _

/-- Whether every course of a map goes on from one heap to another. -/
def Follows (environment : Environment) (place : Nat) (before after : Heap) : Prop :=
  ∀ journal, Course environment place journal before →
    ∃ more, Course environment place (more ++ journal) after

instance : Std.Refl (Follows environment place) := ⟨fun _ _ course => ⟨[], course⟩⟩

instance : IsTrans Heap (Follows environment place) where
  trans _ _ _ first second journal course := by
    obtain ⟨events, course⟩ := first journal course
    obtain ⟨more, course⟩ := second _ course
    exact ⟨more ++ events, by rwa [List.append_assoc]⟩

/-- A course goes on past steps that leave the map alone. -/
theorem follows_of_keeps {α : Type} {step : Run α}
    (keeps : Relates State.heap (Heap.KeepsMap place) step) :
    Relates State.heap (Follows environment place) step :=
  fun state _ course => ⟨[], course.aside (keeps state)⟩

theorem follows_builds : Builds State.heap (Follows environment place) where
  lists items := follows_of_keeps ((keepsMap_builds place).lists items)
  maps entries := follows_of_keeps ((keepsMap_builds place).maps entries)
  documents document := follows_of_keeps ((keepsMap_builds place).documents document)
  writes other items := follows_of_keeps ((keepsMap_builds place).writes other items)

theorem follows_setMap {other : Nat} (different : other ≠ place) (entries : Dict Value) :
    Relates State.heap (Follows environment place) (setMap other entries) :=
  follows_of_keeps (keepsMap_setMap different entries)

/-- A course goes on with every change. -/
theorem follows_perform (change : Change) :
    Relates State.heap (Follows environment place) (change.perform place) := by
  intro state journal course
  by_cases keyed : change.Keyed
  · exact ⟨_, course.changes keyed⟩
  · simp only [Change.Keyed, not_forall, Bool.not_eq_false] at keyed
    obtain ⟨key, about, nothing⟩ := keyed
    obtain ⟨cause, refused⟩ := perform_nothing about nothing place state
    rw [Run.after, refused]
    exact ⟨[], course⟩

/-- The call of a method that makes a change. -/
theorem follows_called (change : Change) {call : Run Value}
    (made : change.perform place = (fun _ => ()) <$> call) :
    Relates State.heap (Follows environment place) call := by
  intro state
  have follows : Follows environment place state.heap ((change.perform place).after state).heap :=
    follows_perform change state
  rwa [made, after_map] at follows

/-- The methods of a map that write it are its changes; the others leave it alone. -/
theorem follows_callMap (name : String) (arguments : List Value) :
    Relates State.heap (Follows environment place) (callMap place name arguments) := by
  have lists := (keepsMap_builds place).lists
  have entryMaps := entryMaps_relates (keepsMap_builds place)
  have put (key value : Value) : Relates State.heap (Follows environment place)
      (callMethod (.map place) "put" [key, value]) := follows_called (.put key value) rfl
  have putAll (source : Nat) : Relates State.heap (Follows environment place)
      (callMethod (.map place) "putAll" [.map source]) := follows_called (.putAll source) rfl
  have remove (key : Value) : Relates State.heap (Follows environment place)
      (callMethod (.map place) "remove" [key]) := follows_called (.remove key) rfl
  have clear : Relates State.heap (Follows environment place)
      (callMethod (.map place) "clear" []) := follows_called .clear rfl
  intro state
  rw [callMap, after_bind_of_ok (show Run.heap state = .ok state.heap state from rfl)]
  simp only
  split
  case h_4 key value => exact put key value state
  case h_5 source => exact putAll source state
  case h_12 key => exact remove key state
  case h_13 => exact clear state
  case h_14 => split <;> exact follows_of_keeps (by simp) state
  all_goals exact follows_of_keeps (by simp [lists, entryMaps]) state

/-- **What templates are made of goes on with the course of a map.** -/
theorem follows_carries : Carries environment State.heap (Follows environment place) where
  output _ _ := rfl
  binding := rebinds_of_blind fun _ _ => rfl
  lists := follows_builds.lists
  maps := follows_builds.maps
  functions := callIn_relates_of follows_builds (fun _ => relates_of_eq fun _ => rfl)
    fun _ => relates_of_eq fun _ => rfl
  methods target name arguments := by
    refine callMethod_relates follows_builds (fun other _ => ?_) name arguments
    rcases eq_or_ne other place with rfl | different
    · exact follows_callMap
    · exact callMap_relates follows_builds (follows_setMap different)
  properties container name value := by
    by_cases here : container = .map place
    · subst here
      exact follows_perform (.property name value)
    · refine assignProperty_relates (fun other same => follows_setMap ?_) name value
      rintro rfl
      exact here same
  elements container key value := by
    by_cases here : container = .map place
    · subst here
      exact follows_perform (.element key value)
    · refine assignElement_relates follows_builds (fun other same => follows_setMap ?_) key value
      rintro rfl
      exact here same

/-- **A template, whatever it does and however it ends, only goes on with the course of a map.** -/
theorem Course.execute {journal : Journal Value} {state : State}
    (course : Course environment place journal state.heap) (nodes : List Node) :
    ∃ more, Course environment place (more ++ journal)
      ((Template.execute environment nodes).after state).heap :=
  execute_carries follows_carries nodes state journal course

end

end FieldResolver.Template
