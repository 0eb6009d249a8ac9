import Provision.Proofs.Closing.InstanceBooks
import Provision.Proofs.Instances.KeptInstances

/-!
# The custody of instances

A request hands over the closer of each instance that it has, for what became of the instance, or
loses it to one of the events that make it fail.  What a scope stores of a registration is the
instance in its cell, until somebody shows it.

Main statement: `Lawful.deposited`, that whoever shows an instance finds it stored.
-/

namespace Provision

open Moment

variable {U : Client}

/-! ## The conduct -/

/-- One instance if it has to be closed, and otherwise none. -/
def Holding.Single (closes : Bool) (site : Site U) (content : Content U)
    (holdings : List (Holding U)) : Prop :=
  match closes with
  | true => ∃ holding, holdings = [holding] ∧ holding.site = site ∧ holding.current = content
  | false => holdings = []

/-- Whether the closer of a service is for the value that is shown. -/
def Binding.closesShown (binding : Binding U) : Bool :=
  binding.cast.isNone && binding.recipe.closer.isSome

/-- Whether a recipe makes its instances with a constructor. -/
def Recipe.isFactory (recipe : Recipe U) : Bool :=
  match recipe.source with
  | .factory _ => true
  | _ => false

/-- What makes a request lose an instance: the context is found done before any decorator, a
decorator fails on what became of the instance, or refuses an argument. -/
def Event.Breaks (event : Event U) (holding : Holding U) : Prop :=
  match event with
  | .performed (.contextError _) (some _) => holding.current = holding.origin
  | .returned (.decorate site _ _ target _) (.error _) =>
      holding.site = site ∧ holding.current = target
  | .returned (.accepts _) false => True
  | _ => False

namespace Moment

/-- When a request may settle the cell of an instance: with just that in its hands, if the closer
is for what will be shown of it. -/
def MayStore (moment : Moment U) (id : RequestId) (scope : ScopeId) (recipe : RecipeId) :
    Outcome U → Prop
  | .error _ => moment.heldBy id = []
  | .ok value => ∃ key binding home, moment.Homes key binding home ∧ home.id = scope ∧
      binding.recipe.id = recipe ∧ binding.recipe.lifetime.isKept = true ∧
        Holding.Single binding.closesShown ⟨scope, binding.recipe⟩ value.content (moment.heldBy id)

/-- When a request may enter the cell of a value to show: if the instance is there. -/
def MayRecover (moment : Moment U) (scope : ScopeId) (recipe : RecipeId) (key : Key) : Prop :=
  (∃ value, moment.Settled scope (.made recipe) (.ok value)) ∧
    ∃ wanted binding home, moment.Homes wanted binding home ∧ home.id = scope ∧
      binding.recipe.id = recipe ∧ binding.registered = key

/-- When a request may take a turn.  It hands over the closer of the one instance that it has, for
what became of it. -/
def MayTurn (moment : Moment U) (id : RequestId) : Turn U → Prop
  | .gain _ _ => True
  | .renew site target _ =>
      ∀ holding ∈ moment.heldBy id, holding.site = site ∧ holding.current = target
  | .lose cause => ∀ holding ∈ moment.heldBy id, cause.Breaks holding
  | .store scope recipe outcome => moment.MayStore id scope recipe outcome
  | .recover scope recipe key => moment.MayRecover scope recipe key
  | .close scope closer =>
      (closer.recipe.isFactory = true → closer.recipe.closer = some closer.close) ∧
        Holding.Single closer.recipe.isFactory ⟨scope, closer.recipe⟩ closer.subject
          (moment.heldBy id)

end Moment

/-- A request hands over the closer of every instance that it has, unless it loses it, and ends with
none. -/
def Conduct.custody : Conduct U := fun moment entry =>
  (∀ turn, entry.event.turn? = some turn → moment.MayTurn entry.request turn) ∧
    ∀ reply, entry.event = .finished reply → moment.Free entry.request

/-- The events after which a request goes on. -/
def Event.GoesOn : Event U → Prop
  | .finished _ => False
  | _ => True

/-- A request that goes on does not finish. -/
theorem Event.GoesOn.unfinished {event : Event U} (goesOn : event.GoesOn)
    (reply : Except Error (Reply U)) : event ≠ .finished reply := by
  rintro rfl
  exact goesOn

/-- Events that take no turn keep to the conduct. -/
theorem Conduct.custody_of_none {moment : Moment U} {id : RequestId} {event : Event U}
    (quiet : event.turn? = none) (goesOn : event.GoesOn) :
    Conduct.custody moment ⟨id, event⟩ :=
  ⟨fun turn turns => (Option.some_ne_none turn (turns.symm.trans quiet)).elim,
    fun reply ended => absurd ended (goesOn.unfinished reply)⟩

/-! ## What scopes store -/

/-- All keys of one recipe agree on whether showing the instance closes it. -/
theorem Moment.Homes.closesShown_eq {moment : Moment U} {key second : Key}
    {binding other : Binding U} {home otherHome : Scope U}
    (lawful : moment.Lawful (Conduct.orderly.and Conduct.growing))
    (homes : moment.Homes key binding home) (homes' : moment.Homes second other otherHome)
    (scopes : home.id = otherHome.id) (recipes : binding.recipe.id = other.recipe.id)
    (kept : binding.recipe.lifetime.isKept = true) :
    binding.closesShown = other.closesShown := by
  obtain ⟨same, alike⟩ := homes.agree lawful homes' scopes recipes kept
  obtain ⟨_, alike'⟩ := homes'.agree lawful homes scopes.symm recipes.symm (same ▸ kept)
  unfold Binding.closesShown
  rw [← same]
  cases cast : binding.cast with
  | none => rw [(alike cast).1]
  | some _ =>
      cases cast' : other.cast with
      | none => cases cast.symm.trans (alike' cast').1
      | some _ => rfl

/-- A holding that may be stored is of the instance that is settled. -/
theorem Moment.MayStore.of_mem {moment : Moment U} {id : RequestId} {scope : ScopeId}
    {recipe : RecipeId} {outcome : Outcome U} (may : moment.MayStore id scope recipe outcome)
    {holding : Holding U} (held : holding ∈ moment.heldBy id) :
    (∃ value, outcome = .ok value) ∧ holding.site.scope = scope ∧
      holding.site.recipe.id = recipe := by
  cases outcome with
  | error error =>
      rw [show moment.heldBy id = [] from may] at held
      cases held
  | ok value =>
      obtain ⟨key, binding, home, _, _, named, _, single⟩ := may
      cases closes : binding.closesShown with
      | false =>
          rw [closes] at single
          rw [show moment.heldBy id = [] from single] at held
          cases held
      | true =>
          rw [closes] at single
          obtain ⟨only, mine, site, _⟩ := single
          rw [mine] at held
          obtain rfl := List.mem_singleton.mp held
          rw [site]
          exact ⟨⟨value, rfl⟩, rfl, named⟩

/-- A cell that is being filled was not settled. -/
theorem Moment.CellSound.unsettled {moment : Moment U} {id : RequestId} {scope : ScopeId}
    {cell : CacheKey} (sound : moment.CellSound scope cell) (fills : moment.Fills id scope cell)
    (outcome : Outcome U) : ¬ moment.Settled scope cell outcome := by
  rintro ⟨other, did⟩
  obtain rfl := sound.entered (sound.settled did).1 fills.entered
  exact fills.unsettled outcome did

section Lawful

variable {conduct : Conduct U} {moment : Moment U}
  (within : ∀ moment entry, conduct moment entry →
    (Conduct.orderly.and (Conduct.growing.and (Conduct.keeping.and Conduct.custody))) moment entry)

include within

/-- Requests that take care of instances keep what they make. -/
theorem Conduct.keeps_of_custody (moment : Moment U) (entry : Entry U)
    (allowed : conduct moment entry) :
    (Conduct.orderly.and (Conduct.growing.and Conduct.keeping)) moment entry :=
  have both := within moment entry allowed
  ⟨both.1, both.2.1, both.2.2.1⟩

/-- Whoever shows a value found the instance made. -/
theorem Moment.Lawful.mayRecover (lawful : moment.Lawful conduct) {id : RequestId}
    {scope : ScopeId} {recipe : RecipeId} {key : Key}
    (entered : moment.Entered id scope (.shown recipe key)) :
    moment.MayRecover scope recipe key := by
  obtain ⟨before, _, grows, allowed⟩ := lawful.allowed entered
  obtain ⟨⟨value, settled⟩, wanted, binding, home, homes, rest⟩ :=
    (within _ _ allowed).2.2.2.1 (.recover scope recipe key) rfl
  exact ⟨⟨value, settled.mono grows⟩, wanted, binding, home, homes.mono grows, rest⟩

/-- What a scope stores is kept in its cell, and nobody has shown it yet. -/
theorem Moment.Lawful.stored (lawful : moment.Lawful conduct) {holding : Holding U}
    (stored : holding ∈ moment.books.stored) :
    (∃ value, moment.Settled holding.site.scope (.made holding.site.recipe.id) (.ok value)) ∧
      ∀ id key, ¬ moment.Entered id holding.site.scope (.shown holding.site.recipe.id key) := by
  induction lawful with
  | initial => cases stored
  | contexts contexts _ ih => exact ih stored
  | @records moment next entry lawful recorded allowed ih =>
      obtain ⟨request, event⟩ := entry
      have earlier : holding ∈ moment.books.stored →
          (∀ recipe key, event.turn? = some (.recover holding.site.scope recipe key) →
            holding.site.recipe.id ≠ recipe) →
          (∃ value, next.Settled holding.site.scope (.made holding.site.recipe.id) (.ok value)) ∧
            ∀ id key, ¬ next.Entered id holding.site.scope
              (.shown holding.site.recipe.id key) := by
        intro before elsewhere
        obtain ⟨⟨value, settled⟩, unshown⟩ := ih before
        refine ⟨⟨value, settled.mono recorded.suffix⟩, fun id key entered => ?_⟩
        rcases recorded.did_iff.mp entered with ⟨_, now⟩ | was
        · subst now
          exact elsewhere _ key rfl rfl
        · exact unshown id key was
      rcases recorded.books_cases with ⟨quiet, books⟩ | ⟨turn, turns, books⟩ <;> rw [books] at stored
      · exact earlier stored fun _ _ recovers => by cases quiet.symm.trans recovers
      rcases Books.mem_stored_turn stored with before | ⟨held, scope, recipe, outcome, rfl⟩
      · refine earlier before fun recipe key recovers => ?_
        cases turns.symm.trans recovers
        have other := (List.mem_filter.mp stored).2
        simpa using other
      · obtain ⟨⟨value, rfl⟩, rfl, rfl⟩ :=
          MayStore.of_mem ((within _ _ allowed).2.2.2.1 _ turns) held
        obtain rfl : event = _ := Event.turn?_of turns
        have sound := lawful.cell (Conduct.keeps_of_custody within) holding.site.scope
          (.made holding.site.recipe.id)
        refine ⟨⟨value, request, recorded.did⟩, ?_⟩
        intro id key entered
        rcases recorded.did_iff.mp entered with ⟨_, now⟩ | was
        · cases now
        · obtain ⟨other, settled⟩ := (lawful.mayRecover within was).1
          exact sound.unsettled (within _ _ allowed).2.2.1.1 (.ok other) settled

/-- The instance of a registration that is kept, once it is made, is stored for whoever shows it
first, if its closer is for what is shown. -/
def Moment.Deposited (moment : Moment U) (scope : ScopeId) (recipe : RecipeId) (value : Value U) :
    Prop :=
  ∃ key binding home, moment.Homes key binding home ∧ home.id = scope ∧
    binding.recipe.id = recipe ∧ binding.recipe.lifetime.isKept = true ∧
      ((binding.closesShown = true →
          ∀ id, ¬ moment.Entered id scope (.shown recipe binding.registered)) →
        Holding.Single binding.closesShown ⟨scope, binding.recipe⟩ value.content
          (moment.storedAt scope recipe))

/-- Settling the cell of an instance stores what the request has. -/
theorem Moment.Lawful.deposits (lawful : moment.Lawful conduct) {next : Moment U}
    {request : RequestId} {scope : ScopeId} {recipe : RecipeId} {value : Value U}
    (recorded : moment.Records
      ⟨request, .performed (.settle scope (.made recipe) (.ok value)) ()⟩ next)
    (allowed : conduct moment
      ⟨request, .performed (.settle scope (.made recipe) (.ok value)) ()⟩) :
    next.Deposited scope recipe value := by
  have sound := lawful.cell (Conduct.keeps_of_custody within) scope (.made recipe)
  have unsettled := sound.unsettled (within _ _ allowed).2.2.1.1
  have none : moment.books.storedAt scope recipe = [] := by
    refine List.filter_eq_nil_iff.mpr fun holding stored here => ?_
    obtain ⟨⟨other, settled⟩, _⟩ := lawful.stored within stored
    obtain ⟨rfl, rfl⟩ := of_decide_eq_true here
    exact unsettled (.ok other) settled
  have may : moment.MayStore request scope recipe (.ok value) :=
    (within _ _ allowed).2.2.2.1 (.store scope recipe (.ok value)) rfl
  have all : (moment.books.heldBy request).filter (fun holding =>
      decide (holding.site.scope = scope ∧ holding.site.recipe.id = recipe)) =
        moment.books.heldBy request :=
    List.filter_eq_self.mpr fun holding held => decide_eq_true (may.of_mem held).2
  obtain ⟨key, binding, home, homes, named, isRecipe, kept, single⟩ := may
  refine ⟨key, binding, home, homes.mono recorded.suffix, named, isRecipe, kept, fun _ => ?_⟩
  rw [storedAt, recorded.books, Entry.keepBooks_of_turn rfl, Books.storedAt_turn_store, all, none,
    List.append_nil]
  exact single

theorem Moment.Deposited.after (lawful : moment.Lawful conduct) {next : Moment U}
    {request : RequestId} {event : Event U} {scope : ScopeId} {recipe : RecipeId} {value : Value U}
    (deposited : moment.Deposited scope recipe value)
    (settled : moment.Settled scope (.made recipe) (.ok value))
    (recorded : moment.Records ⟨request, event⟩ next) (allowed : conduct moment ⟨request, event⟩) :
    next.Deposited scope recipe value := by
  have turned := (within _ _ allowed).2.2.2.1
  obtain ⟨key, binding, home, homes, named, isRecipe, kept, single⟩ := deposited
  refine ⟨key, binding, home, homes.mono recorded.suffix, named, isRecipe, kept, ?_⟩
  intro unshown
  have single := single fun closes id entered => unshown closes id (recorded.suffix.mem entered)
  rcases recorded.books_cases with ⟨_, books⟩ | ⟨turn, turns, books⟩ <;> rw [storedAt, books]
  · exact single
  cases turn with
  | gain _ _ => exact single
  | renew _ _ _ => exact single
  | lose _ => exact single
  | close _ _ => exact single
  | store elsewhere another outcome =>
      -- The cell is settled, so it is another one that is settled now.
      obtain rfl : event = _ := Event.turn?_of turns
      have sound := lawful.cell (Conduct.keeps_of_custody within) scope (.made recipe)
      have none : (moment.books.heldBy request).filter (fun holding =>
          decide (holding.site.scope = scope ∧ holding.site.recipe.id = recipe)) = [] := by
        refine List.filter_eq_nil_iff.mpr fun holding held here => ?_
        obtain ⟨_, rfl, rfl⟩ := MayStore.of_mem (turned _ turns) held
        obtain ⟨rfl, rfl⟩ := of_decide_eq_true here
        exact sound.unsettled (within _ _ allowed).2.2.1.1 (.ok value) settled
      rw [Books.storedAt_turn_store, none, List.nil_append]
      exact single
  | recover elsewhere another shown =>
      by_cases here : elsewhere = scope ∧ another = recipe
      swap
      · rw [Books.storedAt_turn_recover_of_ne shown here]
        exact single
      obtain ⟨rfl, rfl⟩ := here
      obtain rfl : event = _ := Event.turn?_of turns
      rw [Books.storedAt_turn_recover_self]
      cases closes : binding.closesShown with
      | false => rfl
      | true =>
          -- Only aliases have several keys, so the value is shown under its key now.
          obtain ⟨_, wanted, other, above, homes', named', isRecipe', rfl⟩ := turned _ turns
          have uncast : binding.cast = none := by
            unfold Binding.closesShown at closes
            exact Option.isNone_iff_eq_none.mp (Bool.and_eq_true_iff.mp closes).1
          obtain ⟨_, alike⟩ := homes.agree (lawful.grow (Conduct.keeps_of_custody within))
            homes' (named.trans named'.symm) (isRecipe.trans isRecipe'.symm) kept
          refine absurd (recorded.did_iff.mpr (.inl ⟨rfl, ?_⟩)) (unshown closes request)
          rw [(alike uncast).2]

/-- An instance in its cell is stored until somebody shows it. -/
theorem Moment.Lawful.deposited (lawful : moment.Lawful conduct) {scope : ScopeId}
    {recipe : RecipeId} {value : Value U}
    (settled : moment.Settled scope (.made recipe) (.ok value)) :
    moment.Deposited scope recipe value := by
  induction lawful with
  | initial =>
      obtain ⟨_, did⟩ := settled
      cases did
  | @contexts moment contexts _ ih =>
      have still : moment.history <:+ (moment.withContexts contexts).history := List.suffix_refl _
      obtain ⟨key, binding, home, homes, rest⟩ := ih settled
      exact ⟨key, binding, home, homes.mono still, rest⟩
  | @records moment next entry lawful recorded allowed ih =>
      obtain ⟨request, event⟩ := entry
      obtain ⟨other, did⟩ := settled
      rcases recorded.did_iff.mp did with ⟨_, rfl⟩ | before
      · exact lawful.deposits within recorded allowed
      · exact Deposited.after within lawful (ih ⟨other, before⟩) ⟨other, before⟩ recorded allowed

end Lawful

end Provision
