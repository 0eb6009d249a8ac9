import Provision.Proofs.Instances.ListItems
import Provision.Proofs.Resolution.KeyLookup

/-!
# Fixed values

A fixed value is handed out at once, before any scope is chosen to keep it.  Whoever resolves it
gets the value itself; under an alias the value is converted for each request anew, and what the
conversion returns is neither kept nor decorated.  So a fixed value is the same under all its keys,
and as an item of lists, as far as its conversions return the same.

Main statement: `fixed_unless_converted`.
-/

namespace Provision

open Moment

variable {U : Client}

/-! ## Conversions -/

/-- What a request does to hand out a fixed value as something: it converts the value once, if it is
bound under an alias. -/
def Binding.shows (binding : Binding U) (scope : ScopeId) (fixed content : Content U) :
    List (Event U) :=
  match binding.cast with
  | none => []
  | some cast =>
      let call : Call U :=
        .convert { scope, recipe := binding.recipe } binding.registered cast fixed
      [.called call, .returned call content]

/-- A fixed value is handed out as something in the course of some events: as itself, or as what a
conversion returned that is among the events. -/
structure Binding.Presents (binding : Binding U) (scope : ScopeId) (fixed content : Content U)
    (events : List (Event U)) : Prop where
  itself : binding.cast = none → content = fixed
  shown : binding.shows scope fixed content <:+: events

section Does

variable {scope home : Scope U} {context : ContextId} {key service : Key} {binding : Binding U}
  {events : List (Event U)} {active : List Key} {fixed : Content U} {value : Value U}

/-- Converting a fixed value calls its conversion, or passes it on. -/
theorem does_convert_fixed {wanted : Key}
    (does : Request.Does (binding.convert scope.id wanted
      { type := binding.recipe.produces, content := fixed }) events (.ok value)) :
    (binding.cast = none → value.content = fixed) ∧
      events = binding.shows scope.id fixed value.content := by
  unfold Binding.convert at does
  unfold Binding.shows
  cases cast : binding.cast with
  | none =>
      rw [cast] at does
      obtain ⟨rfl, same⟩ := Request.does_pure.mp does
      cases same
      exact ⟨fun _ => rfl, rfl⟩
  | some cast' =>
      simp only [cast, if_true] at does
      obtain ⟨content, rest, rfl, ends⟩ := Request.does_bind_call.mp does
      obtain ⟨rfl, same⟩ := Request.does_pure.mp ends
      cases same
      exact ⟨nofun, rfl⟩

/-- However deep a request is nested, all it does for a fixed value is to look at its context and at
the scope and to convert the value. -/
theorem does_resolve_fixed {depth : Nat} (bound : scope.registry.find? key = some binding)
    (source : binding.recipe.source = .value fixed)
    (does : Request.Does (resolveWithin depth scope context key active) events (.ok value)) :
    (binding.cast = none → value.content = fixed) ∧
      events = .performed (.contextError context) none :: .performed (.isClosed scope.id) false ::
        binding.shows scope.id fixed value.content := by
  cases depth with
  | zero => exact absurd does Program.not_does_never
  | succ depth =>
      unfold resolveWithin Resolver.resolve at does
      simp only [bound, source] at does
      rcases Request.does_bind.mp does with ⟨_, impossible, _⟩ | ⟨_, _, _, rfl, usable, goes⟩
      · cases impossible
      rcases does_ensureUsable.mp usable with ⟨rfl, _⟩ | ⟨_, _, impossible⟩
      swap
      · cases impossible
      rcases Request.does_bind.mp goes with ⟨_, impossible, _⟩ | ⟨_, _, rest, rfl, opened, ends⟩
      · cases impossible
      rcases does_ensureOpen.mp opened with ⟨rfl, _⟩ | ⟨_, impossible⟩
      swap
      · cases impossible
      obtain ⟨itself, rfl⟩ := does_convert_fixed ends
      exact ⟨itself, rfl⟩

/-! ## Items of lists -/

/-- Wrapping an error changes nothing in a success. -/
theorem does_wrapDependency {α : Type} {param : Param} {request : Request U α} {result : α}
    (does : Request.Does (wrapDependency service param request) events (.ok result)) :
    Request.Does request events (.ok result) := by
  unfold wrapDependency at does
  split at does
  · rcases Request.does_tryCatch.mp does with ⟨_, same, goes⟩ | ⟨_, _, _, _, _, fails⟩
    · cases same
      exact goes
    · cases (Request.does_fail.mp fails).2
  · exact does

/-- An argument for a service is what was resolved for its key meanwhile. -/
theorem does_arguments {resolver : Resolver U} {flag : FlagId} {params : List Param}
    {arguments : List (Argument U)}
    (does : Request.Does (resolver.arguments scope context service active flag params) events
      (.ok arguments)) :
    arguments.length = params.length ∧ ∀ (index : Nat) (needed : Key),
      params[index]? = some (.service needed) →
        ∃ value piece, arguments[index]? = some (.service value) ∧ piece <:+: events ∧
          Request.Does (resolver scope context needed active) piece (.ok value) := by
  induction params generalizing events arguments with
  | nil =>
      obtain ⟨rfl, same⟩ := Request.does_pure.mp does
      cases same
      exact ⟨rfl, nofun⟩
  | cons param params ih =>
      rcases Request.does_bind.mp does with
        ⟨_, impossible, _⟩ | ⟨first, argument, _, rfl, goes, more⟩
      · cases impossible
      rcases Request.does_bind.mp more with
        ⟨_, impossible, _⟩ | ⟨others, rest, _, rfl, goesOn, ends⟩
      · cases impossible
      obtain ⟨rfl, same⟩ := Request.does_pure.mp ends
      cases same
      obtain ⟨length, resolved⟩ := ih goesOn
      refine ⟨congrArg Nat.succ length, fun index needed isKey => ?_⟩
      cases index with
      | zero =>
          obtain rfl : param = .service needed := Option.some.inj isKey
          rcases Request.does_bind.mp (does_wrapDependency goes) with
            ⟨_, impossible, _⟩ | ⟨piece, value, _, rfl, resolves, ends⟩
          · cases impossible
          obtain ⟨rfl, same⟩ := Request.does_pure.mp ends
          cases same
          refine ⟨value, piece, rfl, ?_, resolves⟩
          exact ⟨[], others ++ [], by simp⟩
      | succ index =>
          obtain ⟨value, piece, isArgument, inside, resolves⟩ := resolved index needed isKey
          refine ⟨value, piece, isArgument, inside.trans ?_, resolves⟩
          exact ⟨first, [], by simp⟩

/-- A list that is made anew for each request and has no decorators and no closer. -/
structure Binding.Listing (binding : Binding U) (scope : Scope U) (type : ServiceType) : Prop where
  source : binding.recipe.source = .list type
  lifetime : binding.recipe.lifetime = .transient
  uncast : binding.cast = none
  unclosed : binding.recipe.closer = none
  undecorated : scope.registry.decoratorsOf binding.registered = []

namespace Binding.Listing

variable {type : ServiceType} (listing : binding.Listing scope type)

include listing

/-- A fixed value is not kept. -/
theorem unkept : binding.recipe.lifetime.isKept = false := by
  rw [listing.lifetime]
  rfl

/-- The inputs of a list are its items. -/
theorem does_inputs {resolver : Resolver U} {inputs : Inputs U}
    (does : Request.Does (resolver.inputs scope context key binding active) events (.ok inputs)) :
    inputs.stages = [] ∧ ∃ piece flag, piece <:+: events ∧
      Request.Does (resolver.arguments scope context key active flag binding.recipe.params) piece
        (.ok inputs.arguments) := by
  unfold Resolver.inputs isMade at does
  simp only [listing.unkept, listing.undecorated, Bool.false_eq_true, if_false] at does
  obtain ⟨flag, _, rfl, goes⟩ := Request.does_bind_act.mp does
  rcases Request.does_bind.mp goes with ⟨_, impossible, _⟩ | ⟨_, _, _, rfl, none, goesOn⟩
  · cases impossible
  obtain ⟨rfl, same⟩ := Request.does_pure.mp none
  cases same
  rcases Request.does_bind.mp goesOn with
    ⟨_, impossible, _⟩ | ⟨piece, arguments, _, rfl, resolves, more⟩
  · cases impossible
  rcases Request.does_bind.mp more with ⟨_, impossible, _⟩ | ⟨_, _, _, rfl, stages, ends⟩
  · cases impossible
  obtain ⟨rfl, same⟩ := Request.does_pure.mp stages
  cases same
  obtain ⟨rfl, same⟩ := Request.does_pure.mp ends
  cases same
  exact ⟨rfl, piece, flag, ⟨[.performed .newFlag flag], [], by simp⟩, resolves⟩

/-- What is constructed of the items is the list of them. -/
theorem does_construct {flag : FlagId} {closeMade : Bool} {arguments : List (Argument U)}
    (does : Request.Does
      (construct scope.id context binding.recipe arguments flag closeMade) events (.ok value)) :
    value.content = .list (itemsOf type arguments) := by
  unfold construct Recipe.produce at does
  simp only [listing.source] at does
  rcases Request.does_bind.mp does with ⟨_, impossible, _⟩ | ⟨_, _, _, _, _, reports⟩
  · cases impossible
  obtain ⟨_, _, _, makes⟩ := Request.does_bind_call.mp reports
  rcases Request.does_bind.mp makes with ⟨_, impossible, _⟩ | ⟨_, outcome, _, _, made, raises⟩
  · cases impossible
  obtain ⟨_, same, made⟩ := Request.does_lift.mp made
  cases same
  obtain ⟨_, rfl⟩ := Program.does_done.mp made
  obtain ⟨_, _, _, tells⟩ := Request.does_bind_act.mp raises
  rcases Request.does_bind.mp tells with ⟨_, impossible, _⟩ | ⟨_, made, _, _, told, looks⟩
  · cases impossible
  obtain ⟨_, same⟩ := Request.does_ofExcept.mp told
  cases same
  rcases Request.does_bind.mp looks with ⟨_, impossible, _⟩ | ⟨_, _, _, _, _, attaches⟩
  · cases impossible
  cases closeMade with
  | false =>
      obtain ⟨_, same⟩ := Request.does_pure.mp attaches
      cases same
      rfl
  | true =>
      rcases Request.does_bind.mp attaches with ⟨_, impossible, _⟩ | ⟨_, _, _, _, _, ends⟩
      · cases impossible
      obtain ⟨_, same⟩ := Request.does_pure.mp ends
      cases same
      rfl

/-- What is made of the items is the list of them. -/
theorem does_produceFrom {inputs : Inputs U} (unstaged : inputs.stages = [])
    (does : Request.Does (produceFrom scope context key binding inputs) events (.ok value)) :
    value.content = .list (itemsOf type inputs.arguments) := by
  unfold produceFrom keepIf at does
  simp only [listing.unkept, unstaged, Bool.false_eq_true, if_false,
    finish_plain _ _ _ _ listing.uncast listing.unclosed] at does
  rcases Request.does_bind.mp does with ⟨_, impossible, _⟩ | ⟨_, made, _, _, constructs, ends⟩
  · cases impossible
  obtain ⟨_, same⟩ := Request.does_pure.mp ends
  cases same
  exact listing.does_construct constructs

/-- A request for a list resolves the keys of its items and hands out the list of them. -/
theorem does_resolve {depth : Nat} (bound : scope.registry.find? key = some binding)
    (does : Request.Does (resolveWithin (depth + 1) scope context key active) events (.ok value)) :
    ∃ arguments : List (Argument U), arguments.length = binding.recipe.params.length ∧
      value.content = .list (itemsOf type arguments) ∧
        ∀ (index : Nat) (item : Key), binding.recipe.params[index]? = some (.service item) →
          ∃ value piece, arguments[index]? = some (.service value) ∧ piece <:+: events ∧
            Request.Does (resolveWithin depth scope context item (active ++ [key])) piece
              (.ok value) := by
  unfold resolveWithin Resolver.resolve at does
  simp only [bound, listing.source] at does
  rcases Request.does_bind.mp does with ⟨_, impossible, _⟩ | ⟨usable, _, _, rfl, _, opens⟩
  · cases impossible
  rcases Request.does_bind.mp opens with ⟨_, impossible, _⟩ | ⟨opened, _, _, rfl, _, finds⟩
  · cases impossible
  rcases Request.does_bind.mp finds with ⟨_, impossible, _⟩ | ⟨found, home, rest, rfl, homes, goes⟩
  · cases impossible
  unfold effectiveScope at homes
  simp only [listing.lifetime] at homes
  obtain ⟨rfl, same⟩ := Request.does_pure.mp homes
  cases same
  unfold Resolver.resolveIn recallShown at goes
  simp only [listing.unkept, Bool.false_eq_true] at goes
  rcases Request.does_bind.mp goes with ⟨_, impossible, _⟩ | ⟨_, _, _, rfl, none, creates⟩
  · cases impossible
  obtain ⟨rfl, same⟩ := Request.does_pure.mp none
  cases same
  by_cases isActive : key ∈ active
  · simp only [isActive, if_true] at creates
    cases (Request.does_fail.mp creates).2
  simp only [isActive, if_false, Resolver.create_eq] at creates
  rcases Request.does_bind.mp creates with
    ⟨_, impossible, _⟩ | ⟨gathered, inputs, made, rfl, gathers, produces⟩
  · cases impossible
  obtain ⟨unstaged, piece, _, inside, resolves⟩ := listing.does_inputs gathers
  have items := listing.does_produceFrom unstaged produces
  obtain ⟨length, resolved⟩ := does_arguments resolves
  refine ⟨inputs.arguments, length, items, fun index item isItem => ?_⟩
  obtain ⟨value, part, isArgument, within, goes⟩ := resolved index item isItem
  refine ⟨value, part, isArgument, (within.trans inside).trans ?_, goes⟩
  exact ⟨usable ++ opened, made, by simp⟩

end Binding.Listing

/-- If as many items as arguments are listed, each argument is the item at its place. -/
theorem itemsOf_getElem? {type : ServiceType} {arguments : List (Argument U)} {index : Nat}
    (all : (itemsOf type arguments).length = arguments.length)
    (isArgument : arguments[index]? = some (.service value)) :
    (itemsOf type arguments)[index]? = some value.content := by
  induction arguments generalizing index with
  | nil => cases isArgument
  | cons argument arguments ih =>
      have fewer : (itemsOf type arguments).length ≤ arguments.length := List.length_filterMap_le ..
      cases argument with
      | service first =>
          by_cases typed : first.type = type
          · simp only [itemsOf, List.filterMap_cons, typed, if_true, List.length_cons] at all ⊢
            cases index with
            | zero =>
                cases isArgument
                rfl
            | succ index => exact ih (Nat.succ.inj all) isArgument
          · simp only [itemsOf, List.filterMap_cons, typed, if_false, List.length_cons] at all fewer
            omega
      | _ =>
          simp only [itemsOf, List.filterMap_cons, List.length_cons] at all fewer
          omega

/-- None of the items that are delivered is left out for being of another type. -/
theorem length_itemsOf_itemParams {moment : Moment U} {type : ServiceType} {count : Nat}
    {arguments : List (Argument U)}
    (fits : List.Forall₂ (Fits (moment.Delivers scope)) (itemParams type count) arguments) :
    (itemsOf type arguments).length = count := by
  have params : itemParams type count =
      ((List.range count).map (Key.item type)).map Param.service := by
    rw [List.map_map]
    rfl
  rw [params] at fits
  have typed : ∀ key ∈ (List.range count).map (Key.item type), key.type = type := by
    intro key member
    obtain ⟨index, _, rfl⟩ := List.mem_map.mp member
    rfl
  simpa using (delivered_of_fits typed fits).length_eq.symm

/-- A demand for a key does what the request for the key does, once it has looked at the handle that
it goes through. -/
theorem Demand.Asks.does {demand : Demand U} (asks : demand.Asks scope key)
    (does : demand.request.Does events (.ok (.resolved value))) :
    ∃ looks rest context, events = looks ++ rest ∧ (∀ event ∈ looks, event.Idle) ∧
      Request.Does (Provision.resolve scope context key) rest (.ok value) := by
  have plain : ∀ {scope : Scope U} {context : ContextId} {rest : List (Event U)},
      Request.Does (do
          let value ← Provision.resolve scope context key
          if value.type = key.type then pure value else Request.fail (.typeMismatch key))
        rest (.ok value) →
          Request.Does (Provision.resolve scope context key) rest (.ok value) := by
    intro scope context rest does
    rcases Request.does_bind.mp does with ⟨_, impossible, _⟩ | ⟨first, other, _, rfl, goes, ends⟩
    · cases impossible
    split at ends
    · obtain ⟨rfl, same⟩ := Request.does_pure.mp ends
      cases same
      rwa [List.append_nil]
    · cases (Request.does_fail.mp ends).2
  have answers : ∀ {request : Request U (Value U)}, Request.Does (do
      let value ← request
      pure (Reply.resolved value)) events (.ok (.resolved value)) →
        request.Does events (.ok value) := by
    intro request does
    rcases Request.does_bind.mp does with ⟨_, impossible, _⟩ | ⟨first, other, _, rfl, goes, ends⟩
    · cases impossible
    obtain ⟨rfl, same⟩ := Request.does_pure.mp ends
    cases same
    rwa [List.append_nil]
  cases asks with
  | resolve _ context => exact ⟨[], events, context, rfl, List.forall_mem_nil _, answers does⟩
  | resolveTyped _ context =>
      exact ⟨[], events, context, rfl, List.forall_mem_nil _, plain (answers does)⟩
  | resolveThrough handle context =>
      rcases Request.does_bind.mp (answers does) with
        ⟨_, impossible, _⟩ | ⟨looks, _, rest, rfl, ready, goes⟩
      · cases impossible
      obtain ⟨idle, _⟩ := (Upkeep.only_ensureReady handle key).does ready
      exact ⟨looks, rest, context, rfl, idle, goes⟩
  | resolveTypedThrough handle context =>
      rcases Request.does_bind.mp (answers does) with
        ⟨_, impossible, _⟩ | ⟨looks, _, rest, rfl, ready, goes⟩
      · cases impossible
      obtain ⟨idle, _⟩ := (Upkeep.only_ensureReady handle key).does ready
      exact ⟨looks, rest, context, rfl, idle, plain goes⟩
  | invoke =>
      rcases Request.does_bind.mp does with ⟨_, impossible, _⟩ | ⟨_, _, _, _, _, ends⟩
      · cases impossible
      · cases (Request.does_pure.mp ends).2

end Does

/-! ## Lists of scopes -/

/-- What is not registered under the key of an item stands there as an item. -/
theorem lt_of_latest?_item {bound : List (Binding U)} {type : ServiceType} {index : Nat}
    {binding : Binding U} (latest : latest? bound (.item type index) = some binding)
    (named : binding.registered ≠ .item type index) : index < (exposed bound type).length := by
  have member := List.mem_of_getLast? latest
  obtain ⟨entry, found, rfl⟩ := List.mem_map.mp member
  obtain ⟨isExposed, isEntry⟩ := List.mem_filter.mp found
  rcases of_decide_eq_true isEntry with isRegistered | isItem
  · exact absurd isRegistered named
  · cases isItem
    exact List.snd_lt_of_mem_zipIdx isExposed

namespace Activity.Reachable

variable {activity : Activity U} (reachable : activity.Reachable) {scope : Scope U}

include reachable

/-- The registry of a scope reflects what was bound along the chain to it. -/
theorem reflects (isScope : activity.moment.IsScope scope) :
    ∃ bound, scope.registry.Reflects bound := by
  obtain ⟨levels, raised⟩ := reachable.exists_raised isScope
  obtain ⟨builder, rfl, follows⟩ := reachable.follows raised
  rw [Builder.scope_registry]
  exact ⟨_, follows.reflects⟩

/-- A request for a key that ended with a value did what resolving the key does. -/
theorem asked {id : RequestId} {demand : Demand U} {key : Key} {value : Value U}
    (began : activity.moment.Did id (.started demand)) (asks : demand.Asks scope key)
    (ended : activity.moment.Did id (.finished (.ok (.resolved value)))) :
    ∃ looks events context, (∀ event ∈ looks, event.Idle) ∧
      activity.moment.doings id =
          .started demand :: (looks ++ events) ++ [.finished (.ok (.resolved value))] ∧
        Request.Does (resolve scope context key) events (.ok value) := by
  obtain ⟨events, doings, does⟩ := reachable.went began ended
  obtain ⟨looks, rest, context, rfl, idle, goes⟩ := asks.does does
  exact ⟨looks, rest, context, idle, doings, goes⟩

end Activity.Reachable

/-- The list of a type in a scope that has an item of it. -/
theorem Registry.Reflects.listing {scope : Scope U} {bound : List (Binding U)}
    (reflects : scope.registry.Reflects bound) {type : ServiceType} {index : Nat}
    {binding : Binding U} (isItem : scope.registry.find? (.item type index) = some binding)
    (undecorated : scope.registry.decoratorsOf (.of (.list type)) = []) :
    ∃ list : Binding U, scope.registry.find? (.of (.list type)) = some list ∧
      list.Listing scope type ∧ list.recipe.params = itemParams type (exposed bound type).length ∧
        (binding.registered ≠ .item type index → index < (exposed bound type).length) := by
  have unlisted : listing? bound (.item type index) = none :=
    listing?_of_ne_list fun item same => by cases congrArg Key.tag same
  rw [reflects.find, unlisted, Option.or_none] at isItem
  have isExposed : exposed bound type ≠ [] := List.ne_nil_of_mem (mem_of_latest? isItem)
  have last := List.getLast?_eq_some_getLast isExposed
  have found := reflects.find (.of (.list type))
  rw [(reflects.apart type).resolve_right isExposed, Option.none_or, listing?_list, last] at found
  exact ⟨_, found, ⟨rfl, rfl, rfl, rfl, undecorated⟩, rfl, lt_of_latest?_item isItem⟩

/-! ## Values of requests -/

/-- All conversions of a fixed value return the same, if it has to be converted at all. -/
def Moment.ConvertsTo (moment : Moment U) (binding : Binding U) (fixed view : Content U) : Prop :=
  (binding.cast = none → view = fixed) ∧
    ∀ cast id caller content, binding.cast = some cast →
      moment.Did id (.returned
        (.convert ⟨caller, binding.recipe⟩ binding.registered cast fixed) content) → content = view

/-- What is handed out as the conversions go is what they all return. -/
theorem Moment.ConvertsTo.eq {moment : Moment U} {binding : Binding U}
    {fixed view content : Content U}
    {scope : ScopeId} {id : RequestId} (converts : moment.ConvertsTo binding fixed view)
    (presents : binding.Presents scope fixed content (moment.doings id)) : content = view := by
  cases cast : binding.cast with
  | none => exact (presents.itself cast).trans (converts.1 cast).symm
  | some cast' =>
      have shown := presents.shown.subset
      rw [Binding.shows, cast] at shown
      have returned := shown (List.mem_cons_of_mem _ List.mem_cons_self)
      exact converts.2 cast' id scope content cast (mem_doings.mp returned)

/-- What a request is given for a key of a scope: the value that it asked for, or the item in the
place of the key if it asked for a list that is not decorated. -/
inductive Moment.Given (moment : Moment U) (scope : Scope U) (key : Key) (id : RequestId) :
    Content U → Prop where
  | resolved {demand : Demand U} {value : Value U} : moment.Did id (.started demand) →
      demand.Asks scope key → moment.Did id (.finished (.ok (.resolved value))) →
        Given moment scope key id value.content
  | listed {demand : Demand U} {type : ServiceType} {index : Nat} {all : Value U}
      {contents : List (Content U)} {content : Content U} : key = .item type index →
        scope.registry.decoratorsOf (.of (.list type)) = [] → moment.Did id (.started demand) →
          demand.Asks scope (.of (.list type)) →
            moment.Did id (.finished (.ok (.resolved all))) → all.content = .list contents →
              contents[index]? = some content → Given moment scope key id content

/-- How a scope hands out a fixed value that one of its keys is bound to. -/
structure Moment.HandsOut (moment : Moment U) (scope : Scope U) (key : Key) (binding : Binding U)
    (fixed : Content U) : Prop where
  /-- However deep a request for the key is nested in others, it looks at its context and at the
  scope, converts the value if it has to, and does nothing else. -/
  needed : ∀ depth context active events value,
    Request.Does (resolveWithin depth scope context key active) events (.ok value) →
      (binding.cast = none → value.content = fixed) ∧
        events = .performed (.contextError context) none ::
          .performed (.isClosed scope.id) false :: binding.shows scope.id fixed value.content
  /-- So does whoever asks for the key. -/
  resolved : ∀ id demand value, moment.Did id (.started demand) → demand.Asks scope key →
    moment.Did id (.finished (.ok (.resolved value))) →
      (binding.cast = none → value.content = fixed) ∧
        ∃ looks : List (Event U), (∀ event ∈ looks, event.Idle) ∧ moment.doings id =
          .started demand :: (looks ++ binding.shows scope.id fixed value.content) ++
            [.finished (.ok (.resolved value))]
  /-- If the key is that of an item, a list that is not decorated has an item in its place, unless
  the key itself was registered. -/
  listed : ∀ type index id demand all, key = .item type index →
    scope.registry.decoratorsOf (.of (.list type)) = [] → moment.Did id (.started demand) →
      demand.Asks scope (.of (.list type)) →
        moment.Did id (.finished (.ok (.resolved all))) → ∃ contents,
          all.content = .list contents ∧ (binding.registered ≠ key → index < contents.length)
  /-- Whoever is given something for the key is given the value, or what the very request converted
  it to. -/
  given : ∀ id content, moment.Given scope key id content →
    binding.Presents scope.id fixed content (moment.doings id)
  /-- As far as conversions return the same, all are given the same. -/
  stable : ∀ view, moment.ConvertsTo binding fixed view →
    ∀ id content, moment.Given scope key id content → content = view

section Reachable

variable {activity : Activity U} (reachable : activity.Reachable) {scope : Scope U} {key : Key}
  {binding : Binding U} {fixed : Content U}

include reachable

/-- A request for a fixed value comes to it, or to a new conversion of it. -/
theorem Activity.Reachable.resolved_fixed (bound : scope.registry.find? key = some binding)
    (source : binding.recipe.source = .value fixed) {id : RequestId} {demand : Demand U}
    {value : Value U} (began : activity.moment.Did id (.started demand))
    (asks : demand.Asks scope key)
    (ended : activity.moment.Did id (.finished (.ok (.resolved value)))) :
    (binding.cast = none → value.content = fixed) ∧
      ∃ looks : List (Event U), (∀ event ∈ looks, event.Idle) ∧ activity.moment.doings id =
        .started demand :: (looks ++ binding.shows scope.id fixed value.content) ++
          [.finished (.ok (.resolved value))] := by
  obtain ⟨looks, events, context, idle, doings, does⟩ := reachable.asked began asks ended
  obtain ⟨itself, rfl⟩ := does_resolve_fixed bound source does
  refine ⟨itself, looks ++ [.performed (.contextError context) none,
    .performed (.isClosed scope.id) false], fun event member => ?_, by simpa using doings⟩
  rcases List.mem_append.mp member with isLook | isOther
  · exact idle event isLook
  · simp only [List.mem_cons, List.not_mem_nil, or_false] at isOther
    rcases isOther with rfl | rfl <;> exact trivial

/-- What a list that is not decorated holds in the place of a fixed value. -/
theorem Activity.Reachable.listed_fixed {type : ServiceType} {index : Nat}
    (isScope : activity.moment.IsScope scope)
    (bound : scope.registry.find? (.item type index) = some binding)
    (source : binding.recipe.source = .value fixed)
    (undecorated : scope.registry.decoratorsOf (.of (.list type)) = [])
    {id : RequestId} {demand : Demand U} {all : Value U}
    (began : activity.moment.Did id (.started demand))
    (asks : demand.Asks scope (.of (.list type)))
    (ended : activity.moment.Did id (.finished (.ok (.resolved all)))) :
    ∃ contents, all.content = .list contents ∧
      (binding.registered ≠ .item type index → index < contents.length) ∧
        ∀ content, contents[index]? = some content →
          binding.Presents scope.id fixed content (activity.moment.doings id) := by
  obtain ⟨registered, reflects⟩ := reachable.reflects isScope
  obtain ⟨list, isList, listing, params, inside⟩ := reflects.listing bound undecorated
  obtain ⟨looks, events, context, idle, doings, does⟩ := reachable.asked began asks ended
  obtain ⟨arguments, length, contents, resolved⟩ := listing.does_resolve isList does
  have count : (itemsOf type arguments).length = arguments.length := by
    obtain ⟨others, fits, same⟩ := (reachable.assembled began asks ended).items list type isList
      listing.source listing.uncast listing.undecorated
    rw [contents] at same
    rw [params] at fits length
    rw [Content.list.inj same, length_itemsOf_itemParams fits, length]
    simp [itemParams]
  have places : arguments.length = (exposed registered type).length := by
    rw [length, params]
    simp [itemParams]
  refine ⟨itemsOf type arguments, contents, fun named => ?_, fun content isItem => ?_⟩
  · rw [count, places]
    exact inside named
  · have isPlace : list.recipe.params[index]? = some (.service (.item type index)) := by
      have within := (List.getElem?_eq_some_iff.mp isItem).1
      rw [count, places] at within
      simp [params, itemParams, within]
    obtain ⟨value, piece, isArgument, part, goes⟩ := resolved index _ isPlace
    obtain ⟨itself, rfl⟩ := does_resolve_fixed bound source goes
    have same := itemsOf_getElem? count isArgument
    rw [isItem] at same
    obtain rfl := Option.some.inj same
    refine ⟨itself, (List.infix_cons (List.infix_cons (List.infix_refl _))).trans (part.trans ?_)⟩
    rw [doings]
    exact ⟨.started demand :: looks, [.finished (.ok (.resolved all))], by simp⟩

end Reachable

/-- In every scope that was built, whoever resolves a key that is bound to a fixed value, or a list
with the value as an item, while other requests go on in any order, is given the value itself, or
what the request had the value converted to, once and for itself alone.  So all are given the same
unless conversions of the value return different things. -/
theorem fixed_unless_converted {activity : Activity U} (reachable : activity.Reachable)
    {scope : Scope U} (isScope : activity.moment.IsScope scope) {key : Key} {binding : Binding U}
    {fixed : Content U} (bound : scope.registry.find? key = some binding)
    (source : binding.recipe.source = .value fixed) :
    activity.moment.HandsOut scope key binding fixed := by
  have given : ∀ id content, activity.moment.Given scope key id content →
      binding.Presents scope.id fixed content (activity.moment.doings id) := by
    intro id content given
    cases given with
    | @resolved demand value began asks ended =>
        obtain ⟨itself, looks, _, doings⟩ :=
          reachable.resolved_fixed bound source began asks ended
        rw [doings]
        exact ⟨itself, .started demand :: looks, [.finished (.ok (.resolved value))], by simp⟩
    | listed isItem undecorated began asks ended isList isPlace =>
        subst isItem
        obtain ⟨contents, same, _, presents⟩ :=
          reachable.listed_fixed isScope bound source undecorated began asks ended
        cases same.symm.trans isList
        exact presents _ isPlace
  refine ⟨?_, ?_, ?_, given, fun view converts id content isGiven => ?_⟩
  · exact fun _ _ _ _ _ => does_resolve_fixed bound source
  · exact fun _ _ _ => reachable.resolved_fixed bound source
  · rintro type index id demand all rfl undecorated began asks ended
    obtain ⟨contents, same, inside, _⟩ :=
      reachable.listed_fixed isScope bound source undecorated began asks ended
    exact ⟨contents, same, inside⟩
  · exact converts.eq (given id content isGiven)

/-- Each conversion returns another list, and all else goes as with an obliging client. -/
def Behaviour.renewing : Behaviour Client.obliging Nat := fun call world =>
  match call with
  | .construct _ _ _ => some (.ok (.object ()), world)
  | .decorate _ _ _ target _ => some (.ok target, world)
  | .convert _ _ _ _ => some (.list (List.replicate world.memory (.object ())),
      { world with memory := world.memory + 1 })
  | .close _ _ _ _ => some (none, world)
  | .enact _ _ => some (none, world)
  | .accepts _ => some (true, world)
  | .report _ => some ((), world)

theorem Behaviour.renewing_detached : Behaviour.renewing.Detached := by
  intro call world answer after runs
  refine ⟨world.state.contexts, ?_⟩
  cases call <;> cases runs <;> rfl

namespace Renewed

/-- The type under which a fixed value is visible. -/
def visible : ServiceType := .interface "sample" "I"

/-- What the scope is built of. -/
def offer : Offer Client.obliging :=
  (Offer.value (.concrete "sample" "A") (.object ())).alsoAs visible ()

/-- The scope. -/
def scope : Scope Client.obliging :=
  ((Builder.root ⟨1⟩).addAll [.service offer]).scope

/-- What the type is bound to. -/
def binding : Binding Client.obliging where
  recipe := offer.recipe (.registration ⟨1⟩ 0)
  registered := .of visible
  owner := ⟨1⟩
  cast := some ()

/-- What a conversion returned after some others. -/
def view (before : Nat) : Content Client.obliging :=
  .list (List.replicate before (.object ()))

/-- The world once the scope is built. -/
def built : World Client.obliging Nat :=
  (Demand.build none [.service offer]).afterwards Behaviour.renewing { state := {}, memory := 0 }

/-- The world once the value was resolved. -/
def resolved : World Client.obliging Nat :=
  (Demand.resolve scope ⟨0⟩ (.of visible)).afterwards Behaviour.renewing built

/-- The value was resolved twice under its alias. -/
theorem served : ∃ activity : Activity Client.obliging, Activity.Served Behaviour.renewing
    [(.build none [.service offer], .ok (.built scope)),
      (.resolve scope ⟨0⟩ (.of visible), .ok (.resolved ⟨visible, view 0⟩)),
      (.resolve scope ⟨0⟩ (.of visible), .ok (.resolved ⟨visible, view 1⟩))]
    ((Demand.resolve scope ⟨0⟩ (.of visible)).afterwards Behaviour.renewing resolved) activity := by
  have builds : (Demand.build none [.service offer]).request.run.run Behaviour.renewing
      { state := {}, memory := 0 } = some (.ok (.built scope), built) := rfl
  have first : (Demand.resolve scope ⟨0⟩ (.of visible)).request.run.run Behaviour.renewing built =
      some (.ok (.resolved ⟨visible, view 0⟩), resolved) := rfl
  have second : (Demand.resolve scope ⟨0⟩ (.of visible)).request.run.run Behaviour.renewing
      resolved = some (.ok (.resolved ⟨visible, view 1⟩),
        (Demand.resolve scope ⟨0⟩ (.of visible)).afterwards Behaviour.renewing resolved) := rfl
  have detached := Behaviour.renewing_detached
  obtain ⟨_, one, _⟩ := (Activity.Served.initial 0).next detached builds nofun
  obtain ⟨_, two, _⟩ := one.nextOn detached first rfl List.mem_cons_self
  obtain ⟨activity, three, _⟩ := two.nextOn detached second rfl List.mem_cons_self
  exact ⟨activity, three⟩

end Renewed

/-- A fixed value is converted anew for each of two requests, which get different things. -/
theorem fixed_value_converted_anew : ∃ activity : Activity Client.obliging, activity.Reachable ∧
    activity.moment.HandsOut Renewed.scope (.of Renewed.visible) Renewed.binding (.object ()) ∧
      activity.moment.Given Renewed.scope (.of Renewed.visible) ⟨1⟩ (Renewed.view 0) ∧
        activity.moment.Given Renewed.scope (.of Renewed.visible) ⟨2⟩ (Renewed.view 1) ∧
          Renewed.view 0 ≠ Renewed.view 1 := by
  obtain ⟨activity, served⟩ := Renewed.served
  have isScope : activity.moment.IsScope Renewed.scope := ⟨⟨0⟩, (served.did 0 rfl).2⟩
  have hands := fixed_unless_converted served.reachable isScope
    (show Renewed.scope.registry.find? (.of Renewed.visible) = some Renewed.binding from rfl)
    (show Renewed.binding.recipe.source = .value (.object ()) from rfl)
  obtain ⟨began, ended⟩ := served.did 1 rfl
  obtain ⟨began', ended'⟩ := served.did 2 rfl
  exact ⟨activity, served.reachable, hands, .resolved began (.resolve ..) ended,
    .resolved began' (.resolve ..) ended', by rintro ⟨⟩⟩

end Provision
