import Provision.Proofs.Resolution.ReportedCycles
import Provision.Proofs.Instances.KeptFailures
import Mathlib.Data.List.Nodup

/-!
# What errors tell of their way

A request for a key fails where it is made or for something that its service needs, so its error
has come up a way through the dependency graph.  The wrappers of the error name this way, and the
root names its end, whatever else goes on and whatever was kept before: what a cell keeps is the
failure of creation itself, which names no way.

Main statement: `error_names_its_way`.
-/

namespace Provision

open Moment

variable {U : Client}

/-- A way from a key of a scope along dependencies: each key is one that the service under the key
before needs, in the scope that keeps that service. -/
inductive Route : Scope U → Key → List Key → Prop where
  | here (scope : Scope U) (key : Key) : Route scope key []
  | step {scope home : Scope U} {key needed : Key} {binding : Binding U} {path : List Key}
      (finds : scope.Finds key binding home) (needs : binding.Needs home needed)
      (rest : Route home needed path) : Route scope key (needed :: path)

/-- The wrappers of an error, outermost first: a service and the dependency that failed. -/
def Error.wrappers : Error → List (Key × Key)
  | .dependency service needed source => (service, needed) :: source.wrappers
  | _ => []

/-- Why a request for a key fails that is made while other keys are being resolved. -/
inductive Blames : Scope U → Key → List Key → Error → Prop where
  | creation {scope : Scope U} {key : Key} {active : List Key} {error : Error}
      (creation : error.OfCreation) : Blames scope key active error
  | unready (scope : Scope U) (key : Key) : Blames scope key [] (.usedDuringConstruction key)
  | notRegistered (scope : Scope U) (key : Key) (active : List Key) :
      Blames scope key active (.notRegistered key)
  | scopedFromOwner (scope : Scope U) (key : Key) (active : List Key) :
      Blames scope key active (.scopedFromOwner key)
  | cycle (scope : Scope U) {key : Key} {active : List Key} (again : key ∈ active) :
      Blames scope key active (.cycle (cycleChain active key))
  | dependency {scope home : Scope U} {key needed : Key} {active : List Key}
      {binding : Binding U} {error : Error} (finds : scope.Finds key binding home)
      (needs : binding.Needs home needed) (inactive : key ∉ active)
      (rest : Blames home needed (active ++ [key]) error) :
      Blames scope key active (.dependency key needed error)

/-! ## Requests for keys -/

section Requests

variable {scope home : Scope U} {context : ContextId} {key : Key} {binding : Binding U}
  {active : List Key} {events : List (Event U)} {error : Error}

theorem RecallsCreations.subset {events part : List (Event U)} (recalls : RecallsCreations events)
    (among : ∀ event ∈ part, event ∈ events) : RecallsCreations part :=
  fun event member => recalls event (among event member)

/-- A request fails, either before another one or in it. -/
theorem Request.fails_bind {α β : Type} {first : Request U α} {next : α → Request U β}
    {own : Event U → Prop} {yields : Except Error α → Prop} {blames : Prop}
    (only : Request.Only own yields first) (recalls : RecallsCreations events)
    (does : Request.Does (first >>= next) events (.error error))
    (here : yields (.error error) → blames)
    (later : ∀ value rest, yields (.ok value) → RecallsCreations rest →
      Request.Does (next value) rest (.error error) → blames) : blames := by
  rcases Request.does_bind.mp does with ⟨_, same, fails⟩ | ⟨first, value, rest, rfl, goes, ends⟩
  · cases same
    exact here (only.does fails).2
  · have recalls : RecallsCreations rest := recalls.subset fun _ => List.mem_append_right _
    exact later value rest (only.does goes).2 recalls ends

/-- Finding the scope that keeps a value is idle, and blames the key for a failure. -/
theorem only_effectiveScope_blames (scope : Scope U) (key : Key) (binding : Binding U)
    (active : List Key) :
    Request.Only Event.Idle
      (fun outcome => (∀ home, outcome = .ok home → binding.home? scope = some home) ∧
        ∀ error, outcome = .error error → Blames scope key active error)
      (effectiveScope scope key binding) := by
  unfold effectiveScope Binding.home?
  cases binding.recipe.lifetime with
  | singleton =>
      cases found : scope.ancestor? binding.owner with
      | none => exact ⟨nofun, by rintro _ ⟨⟩; exact .notRegistered ..⟩
      | some owner =>
          refine Request.only_bind (only_ensureOpen owner.id) ?_ ?_
          · exact fun error creates => ⟨nofun, by rintro _ ⟨⟩; exact .creation (creates error rfl)⟩
          · exact fun _ _ => ⟨fun home same => Except.ok.inj same ▸ rfl, nofun⟩
  | perScope =>
      by_cases owns : scope.id = binding.owner
      · simp only [owns, if_true]
        exact ⟨nofun, by rintro _ ⟨⟩; exact .scopedFromOwner ..⟩
      · simp only [owns, if_false]
        exact ⟨fun home same => Except.ok.inj same ▸ rfl, nofun⟩
  | transient => exact ⟨fun home same => Except.ok.inj same ▸ rfl, nofun⟩

/-- What was asked for within a request was asked for by some of what it did. -/
theorem Nests.of_mem {inner : Key → List (Event U) → Outcome U → Prop} {own : List (Event U)}
    {asked : List (Key × Outcome U)} {needed : Key} {outcome : Outcome U}
    (nests : Nests inner events own asked) (member : (needed, outcome) ∈ asked) :
    ∃ part, (∀ event ∈ part, event ∈ events) ∧ inner needed part outcome := by
  induction nests with
  | nil => cases member
  | own event _ ih =>
      obtain ⟨part, among, asks⟩ := ih member
      exact ⟨part, fun other here => List.mem_cons_of_mem _ (among other here), asks⟩
  | @asked _ first rest _ _ _ here _ ih =>
      rcases List.mem_cons.mp member with same | later
      · cases same
        exact ⟨first, fun _ => List.mem_append_left _, here⟩
      · obtain ⟨part, among, asks⟩ := ih later
        exact ⟨part, fun other here => List.mem_append_right _ (among other here), asks⟩

namespace Resolver

/-- Requests to a resolver that fail have a reason. -/
def Blames (resolver : Resolver U) : Prop :=
  ∀ scope context key active events error, RecallsCreations events →
    Request.Does (resolver scope context key active) events (.error error) →
      Provision.Blames scope key active error

variable {resolver : Resolver U}

/-- An error of creating a value is to blame on the key or on what it needs. -/
theorem Blames.create (blames : resolver.Blames) (finds : scope.Finds key binding home)
    (inactive : key ∉ active) (recalls : RecallsCreations events)
    (does : Request.Does (resolver.create home context key binding active) events
      (.error error)) : Provision.Blames scope key active error := by
  rw [Resolver.create_eq] at does
  rcases Request.does_bind.mp does with ⟨_, same, fails⟩ | ⟨_, _, rest, rfl, _, makes⟩
  · cases same
    obtain ⟨own, asked, nests, _, failed⟩ := gathers_inputs (fun needed needs events outcome asks =>
      show binding.Needs home needed ∧
        Request.Does (resolver home context needed (active ++ [key])) events outcome from
          ⟨needs, asks⟩) fails
    obtain ⟨needed, cause, rfl, member⟩ := (failed error).mp rfl
    obtain ⟨part, among, needs, asks⟩ := nests.of_mem member
    exact .dependency finds needs inactive (blames _ _ _ _ _ _ (recalls.subset among) asks)
  · have recalls : RecallsCreations rest := recalls.subset fun _ => List.mem_append_right _
    exact .creation (creates_produceFrom recalls makes error rfl)

/-- An error of resolving a value in its home is to blame on the key or on what it needs. -/
theorem Blames.resolveIn (blames : resolver.Blames) (finds : scope.Finds key binding home)
    (recalls : RecallsCreations events)
    (does : Request.Does (resolver.resolveIn home context key binding active) events
      (.error error)) : Provision.Blames scope key active error := by
  have creates : ∀ {events}, RecallsCreations events → Request.Does
      (if key ∈ active then Request.fail (.cycle (cycleChain active key))
        else resolver.create home context key binding active) events (.error error) →
          Provision.Blames scope key active error := by
    intro events recalls does
    by_cases isActive : key ∈ active
    · rw [if_pos isActive] at does
      cases (Request.does_fail.mp does).2
      exact .cycle scope isActive
    · rw [if_neg isActive] at does
      exact blames.create finds isActive recalls does
  unfold Resolver.resolveIn recallShown at does
  by_cases kept : binding.recipe.lifetime.isKept = true
  · simp only [kept] at does
    obtain ⟨found, rest, rfl, goes⟩ := Request.does_bind_act.mp does
    cases found with
    | none => exact creates (recalls.subset fun _ => List.mem_cons_of_mem _) goes
    | some told =>
        obtain ⟨_, last, rfl, ends⟩ := Request.does_bind_call.mp goes
        obtain ⟨rfl, rfl⟩ := Request.does_ofExcept.mp ends
        exact .creation (recalls _ List.mem_cons_self _ (.peeked ..) error rfl)
  · simp only [kept] at does
    exact creates recalls does

/-- A request for a key that fails has a reason, if the requests for what its service needs do. -/
theorem Blames.resolve (blames : resolver.Blames) : resolver.resolve.Blames := by
  intro scope context key active events error recalls does
  unfold Resolver.resolve at does
  refine Request.fails_bind (only_ensureUsable context) recalls does
    (fun creates => .creation (creates error rfl)) fun _ usable _ recalls does => ?_
  refine Request.fails_bind (only_ensureOpen scope.id) recalls does
    (fun creates => .creation (creates error rfl)) fun _ opened _ recalls does => ?_
  cases bound : scope.registry.find? key with
  | none =>
      simp only [bound] at does
      cases (Request.does_fail.mp does).2
      exact .notRegistered ..
  | some binding =>
      simp only [bound] at does
      have makes (made : ¬ binding.IsValue) (does : Request.Does (do
          let effective ← effectiveScope scope key binding
          resolver.resolveIn effective context key binding active) opened (.error error)) :
            Provision.Blames scope key active error := by
        refine Request.fails_bind (only_effectiveScope_blames scope key binding active) recalls does
          (fun fails => fails.2 error rfl) fun home _ isHome recalls does => ?_
        exact blames.resolveIn ⟨bound, made, isHome.1 home rfl⟩ recalls does
      cases source : binding.recipe.source with
      | value content =>
          simp only [source] at does
          exact .creation (((only_convert binding scope.id key _).does does).2.creates error rfl)
      | factory make =>
          simp only [source] at does
          exact makes (fun ⟨_, isValue⟩ => by rw [source] at isValue; cases isValue) does
      | list item =>
          simp only [source] at does
          exact makes (fun ⟨_, isValue⟩ => by rw [source] at isValue; cases isValue) does

/-- Errors are blamed rightly at every depth. -/
theorem blames_resolveWithin (depth : Nat) : (resolveWithin depth : Resolver U).Blames := by
  induction depth with
  | zero => exact fun _ _ _ _ _ _ _ does => absurd does Program.not_does_never
  | succ depth ih => exact ih.resolve

end Resolver

/-! ## Demands -/

/-- An error of a request for a key is to blame on the key or on what it needs. -/
theorem blames_resolve (recalls : RecallsCreations events)
    (does : Request.Does (resolve scope context key) events (.error error)) :
    Blames scope key [] error :=
  Resolver.blames_resolveWithin (scope.registry.bound + 1) _ _ _ _ _ _ recalls does

/-- An error of a typed request is to blame on the key or on what it needs. -/
theorem blames_resolveTyped (recalls : RecallsCreations events)
    (does : Request.Does (scope.resolveTyped context key) events (.error error)) :
    Blames scope key [] error := by
  rcases Request.does_bind.mp does with ⟨_, same, fails⟩ | ⟨_, value, _, _, _, ends⟩
  · cases same
    exact blames_resolve recalls fails
  · by_cases typed : value.type = key.type
    · rw [if_pos typed] at ends
      cases (Request.does_pure.mp ends).2
    · rw [if_neg typed] at ends
      cases (Request.does_fail.mp ends).2
      exact .creation trivial

/-- An error of a handle is to blame on the key. -/
theorem only_ensureReady_blames (handle : Handle U) (key : Key) :
    Request.Only Event.Idle
      (fun outcome => ∀ error, outcome = .error error → Blames handle.scope key [] error)
      (handle.ensureReady key) := by
  refine Request.only_bind_act fun ready => ⟨trivial, ?_⟩
  cases ready with
  | false => rintro _ ⟨⟩; exact .unready ..
  | true =>
      refine Request.only_bind_act fun dropped => ⟨trivial, ?_⟩
      cases dropped with
      | false => rintro _ ⟨⟩
      | true => rintro _ ⟨⟩; exact .creation trivial

/-- Parameters that are resolved one by one fail for a key among them. -/
theorem blames_inject {flag : FlagId} {params : List Param} (recalls : RecallsCreations events)
    (does : Request.Does (scope.inject context flag params) events (.error error)) :
    ∃ needed, .service needed ∈ params ∧ Blames scope needed [] error := by
  induction params generalizing events with
  | nil => cases (Request.does_pure.mp does).2
  | cons param params ih =>
      rcases Request.does_bind.mp does with ⟨_, same, fails⟩ | ⟨_, _, rest, rfl, _, goes⟩
      · cases same
        cases param with
        | context => cases (Request.does_pure.mp fails).2
        | scope => cases (Request.does_pure.mp fails).2
        | service needed =>
            rcases Request.does_bind.mp fails with ⟨_, same, fails⟩ | ⟨_, _, _, _, _, ends⟩
            · cases same
              exact ⟨needed, List.mem_cons_self, blames_resolve recalls fails⟩
            · cases (Request.does_pure.mp ends).2
      · have recalls : RecallsCreations rest := recalls.subset fun _ => List.mem_append_right _
        rcases Request.does_bind.mp goes with ⟨_, same, fails⟩ | ⟨_, _, _, _, _, ends⟩
        · cases same
          obtain ⟨needed, member, blames⟩ := ih recalls fails
          exact ⟨needed, List.mem_cons_of_mem _ member, blames⟩
        · cases (Request.does_pure.mp ends).2

/-- An error of invoking a routine is to blame on a key that it asks for. -/
theorem blames_invoke {params : List Param} {routine : U.Routine}
    (asks : .service key ∈ params) (recalls : RecallsCreations events)
    (does : Request.Does (scope.invoke context params fun arguments =>
      Program.callClient (.enact routine arguments)) events (.error error)) :
    ∃ needed, .service needed ∈ params ∧ Blames scope needed [] error := by
  have creation (creates : error.OfCreation) :
      ∃ needed, .service needed ∈ params ∧ Blames scope needed [] error :=
    ⟨key, asks, .creation creates⟩
  rcases Request.does_bind.mp does with ⟨_, same, fails⟩ | ⟨_, _, _, _, _, ends⟩
  · cases same
    refine Request.fails_bind (only_ensureUsable context) recalls fails
      (fun creates => creation (creates error rfl)) fun _ _ _ recalls fails => ?_
    refine Request.fails_bind (only_ensureOpen scope.id) recalls fails
      (fun creates => creation (creates error rfl)) fun _ _ _ recalls fails => ?_
    obtain ⟨flag, numbered, rfl, raises⟩ := Request.does_bind_act.mp fails
    obtain ⟨_, raised, rfl, injects⟩ := Request.does_bind_act.mp raises
    have recalls : RecallsCreations raised := recalls.subset fun _ here =>
      List.mem_cons_of_mem _ (List.mem_cons_of_mem _ here)
    rcases Request.does_bind.mp injects with ⟨_, same, fails⟩ | ⟨_, arguments, rest, rfl, _, takes⟩
    · cases same
      exact blames_inject recalls fails
    · have recalls : RecallsCreations rest := recalls.subset fun _ => List.mem_append_right _
      exact Request.fails_bind (only_takeAll params arguments) recalls takes
        (fun reached => creation (reached.1 error rfl))
        fun _ _ _ _ ends => by cases (Request.does_pure.mp ends).2
  · obtain ⟨_, impossible, _⟩ := Request.does_lift.mp ends
    cases impossible

/-- A demand for keys that fails has a reason at one of the keys. -/
theorem Demand.Asks.blames {demand : Demand U} (asks : demand.Asks scope key)
    (recalls : RecallsCreations events) (does : demand.request.Does events (.error error)) :
    ∃ asked, demand.Asks scope asked ∧ Blames scope asked [] error := by
  cases asks with
  | resolve _ context _ =>
      rcases Request.does_bind.mp does with ⟨_, same, fails⟩ | ⟨_, _, _, _, _, ends⟩
      · cases same
        exact ⟨key, .resolve scope context key, blames_resolve recalls fails⟩
      · cases (Request.does_pure.mp ends).2
  | resolveTyped _ context _ =>
      rcases Request.does_bind.mp does with ⟨_, same, fails⟩ | ⟨_, _, _, _, _, ends⟩
      · cases same
        exact ⟨key, .resolveTyped scope context key, blames_resolveTyped recalls fails⟩
      · cases (Request.does_pure.mp ends).2
  | resolveThrough handle context _ =>
      rcases Request.does_bind.mp does with ⟨_, same, fails⟩ | ⟨_, _, _, _, _, ends⟩
      · cases same
        refine ⟨key, .resolveThrough handle context key, ?_⟩
        exact Request.fails_bind (only_ensureReady_blames handle key) recalls fails
          (fun fails => fails error rfl) fun _ _ _ recalls fails => blames_resolve recalls fails
      · cases (Request.does_pure.mp ends).2
  | resolveTypedThrough handle context _ =>
      rcases Request.does_bind.mp does with ⟨_, same, fails⟩ | ⟨_, _, _, _, _, ends⟩
      · cases same
        refine ⟨key, .resolveTypedThrough handle context key, ?_⟩
        exact Request.fails_bind (only_ensureReady_blames handle key) recalls fails
          (fun fails => fails error rfl) fun _ _ _ recalls fails =>
            blames_resolveTyped recalls fails
      · cases (Request.does_pure.mp ends).2
  | invoke _ context routine needs =>
      rcases Request.does_bind.mp does with ⟨_, same, fails⟩ | ⟨_, _, _, _, _, ends⟩
      · cases same
        obtain ⟨needed, among, blames⟩ := blames_invoke needs recalls fails
        exact ⟨needed, .invoke scope context routine among, blames⟩
      · cases (Request.does_pure.mp ends).2

end Requests

/-! ## Ways that errors name -/

/-- What an error says of the way that it has come up, to a key that was asked for while other keys
were being resolved. -/
structure Error.Recounts (error : Error) (scope : Scope U) (key : Key) (active path : List Key) :
    Prop where
  route : Route scope key path
  wrappers : error.wrappers = (key :: path).zip path
  dependencies : error.dependencies = path
  missing : ∀ last, error.root = .notRegistered last ∨ error.root = .scopedFromOwner last →
    (key :: path).getLast? = some last
  cycle : ∀ chain, error.root = .cycle chain → ∃ visited last, key :: path = visited ++ [last] ∧
    (active ++ visited).Nodup ∧ last ∈ active ++ visited ∧
      chain = cycleChain (active ++ visited) last

namespace Error.Recounts

variable {error : Error} {scope home : Scope U} {key needed : Key} {binding : Binding U}
  {active path : List Key}

/-- An error that the request met itself and that comes from no cycle. -/
theorem here (unwrapped : error.wrappers = []) (noneNamed : error.dependencies = [])
    (missing : ∀ last, error.root = .notRegistered last ∨ error.root = .scopedFromOwner last →
      last = key) (acyclic : error.Acyclic) : error.Recounts scope key active [] where
  route := .here scope key
  wrappers := unwrapped
  dependencies := noneNamed
  missing := fun last named => by rw [missing last named]; rfl
  cycle := fun chain isCycle => absurd isCycle (acyclic chain)

/-- An error of what a key needs is recounted with one step more. -/
theorem wrap (finds : scope.Finds key binding home) (needs : binding.Needs home needed)
    (recounts : error.Recounts home needed (active ++ [key]) path) :
    (Error.dependency key needed error).Recounts scope key active (needed :: path) where
  route := .step finds needs recounts.route
  wrappers := congrArg _ recounts.wrappers
  dependencies := congrArg _ recounts.dependencies
  missing := fun last named => recounts.missing last named
  cycle := by
    intro chain isCycle
    obtain ⟨visited, last, ends, distinct, again, isChain⟩ := recounts.cycle chain isCycle
    have same : active ++ [key] ++ visited = active ++ key :: visited := List.append_cons .. |>.symm
    rw [same] at distinct again isChain
    exact ⟨key :: visited, last, by rw [ends, List.cons_append], distinct, again, isChain⟩

end Error.Recounts

/-- An error of creation is recounted as one of the key itself. -/
theorem Error.OfCreation.recounts {error : Error} (creation : error.OfCreation) (scope : Scope U)
    (key : Key) (active : List Key) : error.Recounts scope key active [] := by
  refine .here ?_ ?_ ?_ creation.direct.acyclic
  · cases error <;> first | rfl | exact creation.elim
  · cases error <;> first | rfl | exact creation.elim
  · intro last named
    cases error <;> first | exact creation.elim | (rcases named with named | named <;> cases named)

/-- A request that fails with a reason recounts a way to it. -/
theorem Blames.recounts {scope : Scope U} {key : Key} {active : List Key} {error : Error}
    (blames : Blames scope key active error) (distinct : active.Nodup) :
    ∃ path, error.Recounts scope key active path := by
  induction blames with
  | creation creation => exact ⟨[], creation.recounts ..⟩
  | unready scope key =>
      exact ⟨[], .here rfl rfl (by rintro last (named | named) <;> cases named) nofun⟩
  | notRegistered scope key active =>
      exact ⟨[], .here rfl rfl (by rintro last (named | named) <;> cases named; rfl) nofun⟩
  | scopedFromOwner scope key active =>
      exact ⟨[], .here rfl rfl (by rintro last (named | named) <;> cases named; rfl) nofun⟩
  | @cycle scope key active again =>
      refine ⟨[], .here scope key, rfl, rfl, ?_, ?_⟩
      · rintro last (named | named) <;> cases named
      · rintro _ ⟨⟩
        exact ⟨[], key, rfl, by simpa using distinct, by simpa using again, by simp⟩
  | @dependency scope home key needed active binding error finds needs inactive _ ih =>
      have pushed : (active ++ [key]).Nodup := by
        rw [← List.concat_eq_append]
        exact distinct.concat inactive
      obtain ⟨path, recounts⟩ := ih pushed
      exact ⟨needed :: path, recounts.wrap finds needs⟩

/-- What an error says of the way from a key of a scope on which it has come up. -/
structure Error.Traces (error : Error) (scope : Scope U) (key : Key) (path : List Key) : Prop where
  /-- The way goes along dependencies. -/
  route : Route scope key path
  /-- Each wrapper names a key on the way and the one after it, the outermost the first two. -/
  wrappers : error.wrappers = (key :: path).zip path
  /-- The chain is the way, or empty if it leads nowhere else. -/
  chain : error.chain = if path = [] then [] else key :: path
  /-- If a key is not registered, or scoped and asked for where it was registered, it is the last
  on the way. -/
  missing : ∀ last, error.root = .notRegistered last ∨ error.root = .scopedFromOwner last →
    (key :: path).getLast? = some last
  /-- If a key was met again, the cycle is the end of the chain, from that key to itself, and
  otherwise without repetition. -/
  cycle : ∀ chain, error.root = .cycle chain → chain <:+ error.chain ∧
    ∃ again between, chain = again :: between ++ [again] ∧ (again :: between).Nodup

/-- An error that is recounted from the start traces its way. -/
theorem Error.Recounts.traces {error : Error} {scope : Scope U} {key : Key} {path : List Key}
    (recounts : error.Recounts scope key [] path) : error.Traces scope key path := by
  have isChain : error.chain = if path = [] then [] else key :: path := by
    have wrappers := recounts.wrappers
    have dependencies := recounts.dependencies
    cases error with
    | dependency service needed source =>
        cases path with
        | nil => cases dependencies
        | cons first rest =>
            simp only [Error.wrappers, List.zip_cons_cons, List.cons.injEq, Prod.mk.injEq]
              at wrappers
            simp only [Error.dependencies] at dependencies
            rw [if_neg (List.cons_ne_nil _ _), Error.chain, wrappers.1.1, dependencies]
    | _ =>
        obtain rfl : [] = path := dependencies
        rfl
  refine ⟨recounts.route, recounts.wrappers, isChain, recounts.missing, fun chain isCycle => ?_⟩
  obtain ⟨visited, last, ends, distinct, again, rfl⟩ := recounts.cycle chain isCycle
  rw [List.nil_append] at distinct again ⊢
  obtain ⟨before, between, rfl⟩ := List.append_of_mem again
  have fresh : last ∉ before := fun member =>
    (List.nodup_append.mp distinct).2.2 _ member _ List.mem_cons_self rfl
  have path_ne : path ≠ [] := by
    rintro rfl
    have lengths := congrArg List.length ends
    simp at lengths
    omega
  rw [cycleChain_append fresh, isChain, if_neg path_ne, ends]
  refine ⟨⟨before, by simp⟩, last, between, rfl, (List.nodup_append.mp distinct).2.1⟩

/-- The error of a demand for keys tells its way: from a key that was asked for along dependencies,
each looked up in the scope that keeps the service before it, to the key at which the request
failed. -/
theorem error_names_its_way {activity : Activity U} (reachable : activity.Reachable)
    {id : RequestId} {demand : Demand U} {error : Error} {scope : Scope U} {key : Key}
    (asks : demand.Asks scope key) (began : activity.moment.Did id (.started demand))
    (ended : activity.moment.Did id (.finished (.error error))) :
    ∃ asked path, demand.Asks scope asked ∧ error.Traces scope asked path := by
  have lawful := reachable.lawful kept_creating
  obtain ⟨events, doings, does⟩ := reachable.went began ended
  have recalls : RecallsCreations events := by
    intro event member outcome told
    have did : activity.moment.Did id event := by
      rw [← mem_doings, doings]
      simp [member]
    exact (lawful.creations fun _ _ allowed => allowed.2).2 id event outcome did told
  obtain ⟨asked, asksToo, blames⟩ := asks.blames recalls does
  obtain ⟨path, recounts⟩ := blames.recounts List.nodup_nil
  exact ⟨asked, path, asksToo, recounts.traces⟩

/-- The child that registers a service again is told the way through the parent's singleton, which
ends with the key that it began with. -/
theorem overridden_key_way : ∃ activity : Activity Client.obliging, activity.Reachable ∧
    (Demand.resolve Override.child ⟨0⟩ Override.overridden).Asks Override.child
      Override.overridden ∧
    activity.moment.Did ⟨2⟩ (.started (.resolve Override.child ⟨0⟩ Override.overridden)) ∧
    activity.moment.Did ⟨2⟩ (.finished (.error Override.error)) ∧
    Override.error.wrappers = [(Override.overridden, Override.between),
      (Override.between, Override.overridden)] ∧
    ∃ asked path, (Demand.resolve Override.child ⟨0⟩ Override.overridden).Asks Override.child
      asked ∧ Override.error.Traces Override.child asked path := by
  obtain ⟨activity, served⟩ := Override.served
  obtain ⟨began, ended⟩ := served.did 2 rfl
  have asks : (Demand.resolve Override.child ⟨0⟩ Override.overridden).Asks Override.child
      Override.overridden := .resolve ..
  exact ⟨activity, served.reachable, asks, began, ended, rfl,
    error_names_its_way served.reachable asks began ended⟩

end Provision
