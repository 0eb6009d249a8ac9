import Provision.Proofs.Closing.OriginAccounts

/-!
# Closing in order

A request that closes a scope runs the closers in the order opposite to the one in which they were
handed over.  The closer of an instance is handed over only after those of all that the instance
was made of, so that it runs before them.

Where values come from is told by their contents.  That an instance depends on another one means
here that it cannot be accounted for without it.

Main statement: `dependents_closed_first`.
-/

namespace Provision

open Moment

variable {U : Client}

/-! ## Requests that close scopes -/

/-- A request to close a scope hands no closers over. -/
def Conduct.closing : Conduct U := fun moment entry =>
  match entry.event with
  | .performed (.attach _ _) _ =>
      ∀ node context, ¬ moment.Did entry.request (.started (.close node context))
  | _ => True

/-- Events that attach no closer are in order. -/
theorem Conduct.closing_of_unattached {moment : Moment U} {id : RequestId} {event : Event U}
    (unattached : ∀ scope closer answer, event ≠ .performed (.attach scope closer) answer) :
    Conduct.closing moment ⟨id, event⟩ := by
  cases event with
  | performed operation answer =>
      cases operation <;> first | exact trivial | exact absurd rfl (unattached _ _ answer)
  | _ => trivial

/-- All requests keep to that. -/
theorem kept_closing {rely : Conduct U}
    (within : ∀ moment entry, rely moment entry → Conduct.orderly moment entry) :
    Conduct.Kept rely Conduct.closing where
  started := fun _ _ _ _ _ => trivial
  follows := by
    intro moment id demand after _ _ recorded
    have began : after.Did id (.started demand) := recorded.did
    by_cases closes : ∃ node context, demand = .close node context
    · obtain ⟨node, context, rfl⟩ := closes
      have closes : Request.Only
          (fun event => event.Disposing ∨ ∃ answer, event = .performed (.shut node.id) answer)
          (fun _ => True) (Demand.close node context).request :=
        Request.only_bind (only_close node context) (fun _ _ => trivial) fun _ _ => trivial
      refine (closes.keeps ?_).mono fun _ _ _ _ => trivial
      intro later event _ _ own
      refine Conduct.closing_of_unattached fun scope closer answer same => ?_
      subst same
      rcases own with disposing | ⟨_, impossible⟩
      · exact disposing.elim
      · cases impossible
    · refine (Program.keeps_any demand.request.run ?_).mono fun _ _ _ _ => trivial
      intro later event grown lawful
      cases event with
      | performed operation answer =>
          cases operation with
          | attach scope closer =>
              intro node context began'
              refine closes ⟨node, context, ?_⟩
              exact (lawful.mono within).started_once (grown.mem began) began'
          | _ => trivial
      | _ => trivial

namespace Moment

variable {conduct : Conduct U} {moment : Moment U} {id : RequestId} {scope : ScopeId}

/-- A request that no scope refused took over what it got when it shut the scope, and nothing
before. -/
theorem Lawful.takenOver_of_shut (lawful : moment.Lawful conduct)
    (taken : ∀ closer, ¬ moment.Did id (.performed (.attach scope closer) false)) :
    (∀ closers, moment.Did id (.performed (.shut scope) (some closers)) →
        takenOver moment.history id scope = closers) ∧
      ((∀ closers, ¬ moment.Did id (.performed (.shut scope) (some closers))) →
        takenOver moment.history id scope = []) := by
  induction lawful with
  | initial => exact ⟨nofun, fun _ => rfl⟩
  | contexts contexts _ ih => exact ih taken
  | @records moment next entry lawful recorded _ ih =>
      obtain ⟨request, event⟩ := entry
      obtain ⟨shut, unshut⟩ := ih fun closer did => taken closer (recorded.suffix.mem did)
      have grown : takenOver next.history id scope =
          (if request = id then event.takesOver scope else []) ++
            takenOver moment.history id scope := by
        unfold takenOver
        rw [recorded.history, List.flatMap_cons]
      by_cases shuts : ∃ closers, event = .performed (.shut scope) (some closers) ∧ request = id
      · obtain ⟨given, rfl, rfl⟩ := shuts
        have isOpen := (Operation.perform_shut_some recorded.state).2.1
        have first : ∀ closers,
            ¬ moment.Did request (.performed (.shut scope) (some closers)) := by
          intro closers did
          have closed := ((lawful.closed scope).2 request closers did).1
          rw [isOpen] at closed
          cases closed
        have now : next.Did request (.performed (.shut scope) (some given)) :=
          recorded.did
        rw [unshut first] at grown
        simp only [Event.takesOver, if_true, List.append_nil] at grown
        refine ⟨fun closers did => ?_, fun none => absurd now (none given)⟩
        rcases recorded.did_iff.mp did with ⟨_, same⟩ | before
        · cases same
          exact grown
        · exact absurd before (first closers)
      · have nothing : (if request = id then event.takesOver scope else []) = [] := by
          by_cases mine : request = id
          · subst mine
            rw [if_pos rfl]
            refine Event.takesOver_eq_nil (fun closer refused => ?_) fun closers isShut => ?_
            · exact taken closer (refused ▸ recorded.did)
            · exact shuts ⟨closers, isShut, rfl⟩
          · exact if_neg mine
        rw [nothing, List.nil_append] at grown
        rw [grown]
        refine ⟨fun closers did => shut closers ?_, fun none => unshut fun closers did =>
          none closers (recorded.suffix.mem did)⟩
        rcases recorded.did_iff.mp did with ⟨same, now⟩ | before
        · exact absurd ⟨closers, now.symm, same.symm⟩ shuts
        · exact before

/-- A closer that was promised was taken by its scope, and the ones promised earlier before that. -/
theorem exists_taken {history : List (Entry U)} {newer older : List (PendingCloser U)}
    {closer : PendingCloser U} (split : history.flatMap (fun entry => entry.event.promises scope) =
      newer ++ closer :: older) :
    ∃ id earlier, ⟨id, .performed (.attach scope closer) true⟩ :: earlier <:+ history ∧
      earlier.flatMap (fun entry => entry.event.promises scope) = older := by
  induction history generalizing newer with
  | nil => cases newer <;> cases split
  | cons entry earlier ih =>
      have later : ∀ {newer}, earlier.flatMap (fun entry => entry.event.promises scope) =
          newer ++ closer :: older → ∃ id before,
            ⟨id, .performed (.attach scope closer) true⟩ :: before <:+ entry :: earlier ∧
              before.flatMap (fun entry => entry.event.promises scope) = older := by
        intro newer split
        obtain ⟨id, before, suffix, same⟩ := ih split
        exact ⟨id, before, suffix.trans (List.suffix_cons _ _), same⟩
      rw [List.flatMap_cons] at split
      obtain ⟨id, event⟩ := entry
      by_cases taking : ∃ given, event = .performed (.attach scope given) true
      · obtain ⟨given, rfl⟩ := taking
        simp only [Event.promises, if_true] at split
        cases newer with
        | nil =>
            obtain ⟨rfl, same⟩ := List.cons.inj split
            exact ⟨id, earlier, List.suffix_refl _, same⟩
        | cons first newer => exact later (List.cons.inj split).2
      · have none : event.promises scope = [] := by
          cases event with
          | performed operation answer =>
              cases operation with
              | attach other given =>
                  cases answer with
                  | false => rfl
                  | true =>
                      have differs : other ≠ scope := by
                        rintro rfl
                        exact taking ⟨given, rfl⟩
                      exact if_neg differs
              | _ => rfl
          | _ => rfl
        rw [none, List.nil_append] at split
        exact later split

/-- Whatever was handed to a scope that was not shut, it promised to run. -/
theorem Lawful.promised_of_handed (lawful : moment.Lawful conduct) {closer : PendingCloser U}
    (unshut : ∀ id closers, ¬ moment.Did id (.performed (.shut scope) (some closers)))
    (handed : closer ∈ moment.handed scope) : closer ∈ moment.promised scope := by
  obtain ⟨⟨id, event⟩, did, hands⟩ := List.mem_flatMap.mp handed
  refine List.mem_flatMap.mpr ⟨_, did, ?_⟩
  cases event with
  | performed operation answer =>
      cases operation with
      | attach other given =>
          simp only [Event.hands, List.mem_ite_nil_right] at hands
          obtain ⟨rfl, hands⟩ := hands
          cases answer with
          | true =>
              simp only [Event.promises, if_true]
              exact hands
          | false =>
              obtain ⟨other, closers, shut⟩ := lawful.refused did
              exact absurd shut (unshut other closers)
      | _ => cases hands
  | _ => cases hands

end Moment

/-! ## The order of closing -/

namespace Moment

/-- What a closer is for cannot be accounted for without some part: what it was made of, and what
decorators were given that were applied to it, all belongs to the scope or above it, and without
that part no such account is complete. -/
def DependsOn (moment : Moment U) (node : Scope U) (closer : PendingCloser U) (needed : Part U) :
    Prop :=
  ∀ part, part.site.scope = node.id → moment.Closes closer part →
    ¬ moment.Stems (fun source => moment.InLine node source ∧ source ≠ needed) part closer.subject

/-- What becomes of the closers that a request got when it shut a scope, the oldest first. -/
structure ClosesInOrder (moment : Moment U) (id : RequestId) (node : Scope U)
    (closers : List (PendingCloser U)) : Prop where
  /-- The closers run from the last to the first. -/
  order : ranBy moment.history id node.id <:+ closers
  /-- When the request is done, all of them have run. -/
  complete : ∀ reply, moment.Did id (.finished reply) →
    ranBy moment.history id node.id = closers
  /-- All that an instance was made of comes from parts whose closers run later, if they belong to
  the scope and have to be closed. -/
  accounted : ∀ older closer newer, closers = older ++ closer :: newer →
    closer.recipe.isFactory = true → ∃ part, part.site.scope = node.id ∧
      moment.Closes closer part ∧
        moment.Stems (fun source => moment.InLine node source ∧
          (source.site.scope = node.id → moment.ClosedBy older source)) part closer.subject
  /-- An instance is closed before whatever it depends on. -/
  dependents : ∀ older closer newer needed, closers = older ++ closer :: newer →
    closer.recipe.isFactory = true → moment.DependsOn node closer needed →
      needed.site.scope = node.id → moment.ClosedBy older needed

variable {moment : Moment U} {id : RequestId} {node : Scope U}

/-- Whatever an account cannot do without is accounted for. -/
theorem DependsOn.holds {closer : PendingCloser U} {part needed : Part U} {good : Part U → Prop}
    (depends : moment.DependsOn node closer needed) (inScope : part.site.scope = node.id)
    (closes : moment.Closes closer part)
    (stems : moment.Stems (fun source => moment.InLine node source ∧ good source) part
      closer.subject) : good needed := by
  by_contra bad
  refine depends part inScope closes (stems.mono (List.suffix_refl _) fun source known => ?_)
  refine ⟨known.1, ?_⟩
  rintro rfl
  exact bad known.2

section Lawful

variable (lawful : moment.Lawful (Conduct.orderly.and (Conduct.growing.and (Conduct.keeping.and
    (Conduct.sourcing.and (Conduct.paying.and Conduct.closing))))))
  {context : ContextId} {closers : List (PendingCloser U)}

include lawful

/-- What was run of the closers that a request got by shutting a scope. -/
theorem Lawful.ran_in_order (began : moment.Did id (.started (.close node context)))
    (shut : moment.Did id (.performed (.shut node.id) (some closers))) :
    closers = (owedAmong node.id (moment.owedBy id)).reverse ++
      ranBy moment.history id node.id := by
  have taken : ∀ closer, ¬ moment.Did id (.performed (.attach node.id closer) false) := by
    intro closer did
    obtain ⟨later, earlier, split⟩ := List.append_of_mem did
    have suffix : (⟨id, .performed (.attach node.id closer) false⟩ : Entry U) :: earlier <:+
        moment.history := ⟨later, split.symm⟩
    obtain ⟨before, lawful', rfl, orderly, _, _, _, _, closing⟩ := lawful.allowed_at suffix
    obtain ⟨⟨demand, began'⟩, _⟩ := orderly
    have same := (lawful.mono fun _ _ all => all.1).started_once began
      (((List.suffix_cons _ _).trans suffix).mem began')
    subst same
    exact closing node context began'
  rw [← (lawful.takenOver_of_shut taken).1 closers shut]
  exact lawful.repaid_in_order (fun _ _ all => all.2.2.2.2.1) id node.id

/-- A closer that a scope gave up when it was shut is for an instance that was made of parts whose
closers the scope got before. -/
theorem Lawful.accounted_before (isScope : moment.IsScope node)
    (shut : moment.Did id (.performed (.shut node.id) (some closers)))
    {older newer : List (PendingCloser U)} {closer : PendingCloser U}
    (split : closers = older ++ closer :: newer) (isFactory : closer.recipe.isFactory = true) :
    ∃ part, part.site.scope = node.id ∧ moment.Closes closer part ∧
      moment.Stems (fun source => moment.InLine node source ∧
        (source.site.scope = node.id → moment.ClosedBy older source)) part closer.subject := by
  have promised : moment.promised node.id = newer.reverse ++ closer :: older.reverse := by
    rw [(lawful.promised node.id).2 id closers shut, split]
    simp
  obtain ⟨taker, earlier, taken, before⟩ := exists_taken promised
  obtain ⟨asOf, lawful', rfl, _, _, _, sources, _⟩ := lawful.allowed_at taken
  obtain ⟨home, part, named, isHome, inScope, closes, stems⟩ := sources isFactory
  have grows : asOf.history <:+ moment.history := (List.suffix_cons _ _).trans taken
  have grown := lawful.mono fun _ _ all => (⟨all.1, all.2.1⟩ :
    (Conduct.orderly.and Conduct.growing) _ _)
  obtain rfl := (isHome.mono grows).eq_of_id grown isScope named
  have unshut : ∀ other closers,
      ¬ asOf.Did other (.performed (.shut home.id) (some closers)) :=
    fun other closers => lawful.not_shut_before taken other closers
  refine ⟨part, inScope, ⟨closes.recipe, closes.decorated.mono grows⟩, ?_⟩
  refine stems.mono grows fun source secured => ⟨secured.inLine.mono grows, fun here => ?_⟩
  refine ClosedBy.mono secured.handedOver grows fun closer handed => ?_
  rw [here] at handed
  have early : closer ∈ asOf.promised home.id := lawful'.promised_of_handed unshut handed
  rw [show asOf.promised home.id = older.reverse from before] at early
  exact List.mem_reverse.mp early

/-- Whoever shuts a scope gets its closers in the order of dependence. -/
theorem Lawful.closesInOrder (began : moment.Did id (.started (.close node context)))
    (shut : moment.Did id (.performed (.shut node.id) (some closers))) :
    moment.ClosesInOrder id node closers where
  order := by
    rw [lawful.ran_in_order began shut]
    exact List.suffix_append _ _
  complete := by
    intro reply ended
    have paid : moment.owedBy id = [] := by
      refine Lawful.owedBy_finished (lawful.mono fun _ _ all => ?_) ended
      exact ⟨all.1, all.2.1, all.2.2.2.2.1⟩
    have ran := lawful.ran_in_order began shut
    rw [paid] at ran
    exact ran.symm
  accounted := by
    intro older closer newer split isFactory
    have isScope : moment.IsScope node :=
      (lawful.mono fun _ _ all => all.1).named began List.mem_cons_self
    exact lawful.accounted_before isScope shut split isFactory
  dependents := by
    intro older closer newer needed split isFactory depends
    have isScope : moment.IsScope node :=
      (lawful.mono fun _ _ all => all.1).named began List.mem_cons_self
    obtain ⟨part, inScope, closes, stems⟩ := lawful.accounted_before isScope shut split isFactory
    exact depends.holds inScope closes stems

end Lawful

end Moment

/-- In whatever order requests go, a request that closes a scope runs the closers of instances
before those of all that the instances depend on. -/
theorem dependents_closed_first {activity : Activity U} (reachable : activity.Reachable)
    {id : RequestId} {node : Scope U} {context : ContextId} {closers : List (PendingCloser U)}
    (began : activity.moment.Did id (.started (.close node context)))
    (shut : activity.moment.Did id (.performed (.shut node.id) (some closers))) :
    activity.moment.ClosesInOrder id node closers := by
  have keeps : Conduct.Kept
      (Conduct.orderly.and (Conduct.growing.and (Conduct.keeping.and
        (Conduct.sourcing.and (Conduct.paying.and Conduct.closing)))))
      ((@Conduct.growing U).and (Conduct.keeping.and
        (Conduct.sourcing.and (Conduct.paying.and Conduct.closing)))) :=
    kept_growing.and ((kept_keeping fun _ _ all => ⟨all.1, all.2.1, all.2.2.1⟩).and
      ((kept_sourcing fun _ _ all => ⟨all.1, all.2.1, all.2.2.1, all.2.2.2.1⟩).and
        ((kept_paying fun _ _ all => ⟨all.1, all.2.1⟩).and (kept_closing fun _ _ all => all.1))))
  exact (reachable.lawful keeps).closesInOrder began shut

namespace Torn

/-- The key of a service that has to be closed. -/
def part : Key := .of (.concrete "sample" "A")

/-- The key of another one that needs it. -/
def whole : Key := .of (.concrete "sample" "B")

/-- The two services. -/
def registrations : List (Registration Client.obliging) :=
  [.service ((Offer.factory part.type () []).closeWith ()),
    .service ((Offer.factory whole.type () [.service part]).closeWith ())]

/-- The scope that keeps them. -/
def scope : Scope Client.obliging :=
  ((Builder.root ⟨1⟩).addAll registrations).scope

/-- The site of the service that is needed. -/
def partSite : Site Client.obliging :=
  ⟨⟨1⟩, ((Offer.factory part.type () []).closeWith ()).recipe (.registration ⟨1⟩ 0)⟩

/-- The site of the service that needs it. -/
def wholeSite : Site Client.obliging :=
  ⟨⟨1⟩, ((Offer.factory whole.type () [.service part]).closeWith ()).recipe
    (.registration ⟨1⟩ 1)⟩

/-- The closer of an instance. -/
def closer (site : Site Client.obliging) : PendingCloser Client.obliging :=
  { recipe := site.recipe, close := (), subject := .object () }

/-- The world once the scope is built. -/
def built : World Client.obliging Unit :=
  (Demand.build none registrations).afterwards Behaviour.obliging { state := {}, memory := () }

/-- The world once both services are made. -/
def made : World Client.obliging Unit :=
  (Demand.resolve scope ⟨0⟩ whole).afterwards Behaviour.obliging built

/-- What a key leads to. -/
def value (key : Key) : Value Client.obliging :=
  { type := key.type, content := .object () }

/-- What happens when the scope is built, the services are made and the scope is closed. -/
def history : List (Entry Client.obliging) :=
  ((Demand.close scope ⟨0⟩).trace Behaviour.obliging (.ok .nothing) made).map (Entry.mk ⟨2⟩) ++
    (((Demand.resolve scope ⟨0⟩ whole).trace Behaviour.obliging (.ok (.resolved (value whole)))
        built).map (Entry.mk ⟨1⟩) ++
      (((Demand.build none registrations).trace Behaviour.obliging (.ok (.built scope))
        { state := {}, memory := () }).map (Entry.mk ⟨0⟩) ++ []))

/-- The whole and its part were made, and their scope was closed. -/
theorem served : ∃ activity : Activity Client.obliging, activity.Reachable ∧
    activity.moment.history = history := by
  have builds : (Demand.build none registrations).request.run.run Behaviour.obliging
      { state := {}, memory := () } = some (.ok (.built scope), built) := rfl
  have makes : (Demand.resolve scope ⟨0⟩ whole).request.run.run Behaviour.obliging built =
      some (.ok (.resolved (value whole)), made) := rfl
  have closes : (Demand.close scope ⟨0⟩).request.run.run Behaviour.obliging made =
      some (.ok .nothing, (Demand.close scope ⟨0⟩).afterwards Behaviour.obliging made) := rfl
  have detached := Behaviour.obliging_detached
  obtain ⟨_, first, one⟩ := (Activity.Served.initial ()).next detached builds nofun
  obtain ⟨_, second, two⟩ := first.nextOn detached makes rfl List.mem_cons_self
  obtain ⟨activity, third, three⟩ := second.nextOn detached closes rfl List.mem_cons_self
  refine ⟨activity, third.reachable, ?_⟩
  rw [three, two, one]
  rfl

/-- What constructors returned. -/
def constructs : Event Client.obliging →
    List (Site Client.obliging × List (Argument Client.obliging) × Content Client.obliging)
  | .returned (.construct site _ arguments) (.ok content) => [(site, arguments, content)]
  | _ => []

/-- Each service was constructed once, the one with the other. -/
theorem constructed {moment : Moment Client.obliging} (happened : moment.history = history)
    {id : RequestId} {site : Site Client.obliging} {make : Unit}
    {arguments : List (Argument Client.obliging)} {content : Content Client.obliging}
    (did : moment.Did id (.returned (.construct site make arguments) (.ok content))) :
    content = .object () ∧ (site = wholeSite → arguments = [.service (value part)]) := by
  have all : history.flatMap (fun entry => constructs entry.event) =
      [(wholeSite, [.service (value part)], .object ()),
        (partSite, [], .object ())] := rfl
  have member : (site, arguments, content) ∈
      moment.history.flatMap fun entry => constructs entry.event :=
    List.mem_flatMap.mpr ⟨_, did, List.mem_cons_self⟩
  rw [happened, all] at member
  rcases List.mem_cons.mp member with same | later
  · cases same
    exact ⟨rfl, fun _ => rfl⟩
  · cases List.mem_singleton.mp later
    exact ⟨rfl, nofun⟩

section Depends

variable {moment : Moment Client.obliging} {known : Part Client.obliging → Prop}
  {source : Part Client.obliging} {content : Content Client.obliging}

/-- The part stems from itself only. -/
theorem origin_of_part (happened : moment.history = history)
    (stems : moment.Stems known source content) (isPart : source.site = partSite) :
    source = ⟨partSite, .object ()⟩ := by
  induction stems with
  | fixed isValue =>
      change _ = partSite at isPart
      subst isPart
      cases isValue
  | made _ _ did _ _ _ _ =>
      change _ = partSite at isPart
      subst isPart
      rw [(constructed happened did).1]
  | list _ _ isList _ _ _ _ _ =>
      change _ = partSite at isPart
      subst isPart
      cases isList
  | converted _ _ _ ih => exact ih isPart
  | decorated _ _ _ _ _ _ _ _ ih _ => exact ih isPart

/-- The whole uses the part. -/
theorem uses_part (lawful : moment.Lawful (Conduct.orderly.and Conduct.growing))
    (happened : moment.history = history) (isScope : moment.IsScope scope)
    (stems : moment.Stems known source content) (isWhole : source.site = wholeSite) :
    known ⟨partSite, .object ()⟩ := by
  induction stems with
  | fixed isValue =>
      change _ = wholeSite at isWhole
      subst isWhole
      cases isValue
  | made parts madeIn did answers knows sources _ =>
      change _ = wholeSite at isWhole
      subst isWhole
      obtain ⟨isHome, key, binding, finds, place⟩ := madeIn
      obtain rfl := isHome.eq_of_id lawful isScope (congrArg Site.scope place).symm
      obtain rfl := (constructed happened did).2 rfl
      have gives : Gives wholeSite.recipe.params [.service (value part)] part (value part) :=
        ⟨0, rfl, rfl⟩
      obtain ⟨found, bound, isRecipe, inScope⟩ := answers _ _ gives
      cases bound
      have isPart : (parts _ _ gives).site = partSite := by
        have here := inScope scope ⟨rfl, nofun, rfl⟩
        change Site.mk (parts _ _ gives).site.scope (parts _ _ gives).site.recipe = partSite
        rw [here, isRecipe]
        rfl
      rw [← origin_of_part happened (sources _ _ gives) isPart]
      exact knows _ _ gives
  | list _ _ isList _ _ _ _ _ =>
      change _ = wholeSite at isWhole
      subst isWhole
      cases isList
  | converted _ _ _ ih => exact ih isWhole
  | decorated _ _ _ _ _ _ _ _ ih _ => exact ih isWhole

end Depends

/-- The closers of both services, in the order in which they were handed over. -/
def closers : List (PendingCloser Client.obliging) :=
  [closer partSite, closer wholeSite]

/-- The whole depends on the part. -/
theorem dependsOn {moment : Moment Client.obliging}
    (lawful : moment.Lawful (Conduct.orderly.and Conduct.growing))
    (happened : moment.history = history) (isScope : moment.IsScope scope) :
    moment.DependsOn scope (closer wholeSite) ⟨partSite, .object ()⟩ := by
  intro source inScope closes stems
  have isWhole : source.site = wholeSite := by
    change Site.mk source.site.scope source.site.recipe = wholeSite
    rw [inScope, ← closes.recipe]
    rfl
  exact (uses_part lawful happened isScope stems isWhole).2 rfl

end Torn

/-- Of two services one needs the other, and both have to be closed.  The one that is needed was
made and handed over first, and its closer runs last. -/
theorem needed_closed_last : ∃ activity : Activity Client.obliging, activity.Reachable ∧
    activity.moment.Did ⟨2⟩ (.started (.close Torn.scope ⟨0⟩)) ∧
      activity.moment.Did ⟨2⟩ (.performed (.shut Torn.scope.id) (some Torn.closers)) ∧
        ranBy activity.moment.history ⟨2⟩ Torn.scope.id = Torn.closers ∧
          activity.moment.DependsOn Torn.scope (Torn.closer Torn.wholeSite)
            ⟨Torn.partSite, .object ()⟩ ∧
            activity.moment.ClosesInOrder ⟨2⟩ Torn.scope Torn.closers := by
  obtain ⟨activity, reachable, history⟩ := Torn.served
  have did : ∀ {index : Nat} {id event}, Torn.history[index]? = some ⟨id, event⟩ →
      activity.moment.Did id event := by
    intro index id event found
    unfold Moment.Did
    rw [history]
    exact List.mem_iff_getElem?.mpr ⟨index, found⟩
  have began : activity.moment.Did ⟨2⟩ (.started (.close Torn.scope ⟨0⟩)) :=
    did (show Torn.history[8]? = _ from rfl)
  have shut : activity.moment.Did ⟨2⟩
      (.performed (.shut Torn.scope.id) (some Torn.closers)) :=
    did (show Torn.history[7]? = _ from rfl)
  have lawful := reachable.lawful kept_growing
  have isScope : activity.moment.IsScope Torn.scope :=
    (lawful.mono fun _ _ all => all.1).named began List.mem_cons_self
  refine ⟨activity, reachable, began, shut, ?_, Torn.dependsOn lawful history isScope,
    dependents_closed_first reachable began shut⟩
  rw [history]
  rfl

end Provision
