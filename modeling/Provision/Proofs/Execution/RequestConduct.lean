import Provision.Proofs.Execution.Moments

/-!
# Conduct of requests

A conduct says which entries a request may add to the history at a moment.  `Program.Keeps` is the
judgement that a program adds only entries that a conduct allows, however other requests act in
between, as long as these keep to a conduct of their own, and that a statement about the result
holds from then on.  It is defined along the program, so each way of composing programs has one
rule here, and a proof about a request follows the text of the request.

Main statements: `Keeps.andThen` and `keeps_bind` sequence programs and requests, `Keeps.mono`
and `Keeps.and` weaken and join statements about results, `Keeps.grows` adds that the history
only grows, and `Only.upholds` deals at once with programs all of whose events are harmless.
-/

namespace Provision

variable {U : Client} {α β : Type}

/-- What entries may be added to the history at a moment. -/
abbrev Conduct (U : Client) : Type :=
  Moment U → Entry U → Prop

namespace Conduct

/-- Both of two conducts. -/
def and (first second : Conduct U) : Conduct U :=
  fun moment entry => first moment entry ∧ second moment entry

/-- A request starts once, by a demand that may be made, and does nothing before it started or
after it finished. -/
def orderly : Conduct U := fun moment entry =>
  match entry.event with
  | .started demand => ¬ moment.Knows entry.request ∧ demand.Allowed moment
  | _ =>
      (∃ demand, moment.Did entry.request (.started demand)) ∧
        ∀ reply, ¬ moment.Did entry.request (.finished reply)

end Conduct

namespace Moment

/-- A request started and did not finish. -/
def Underway (moment : Moment U) (id : RequestId) : Prop :=
  (∃ demand, moment.Did id (.started demand)) ∧ ∀ reply, ¬ moment.Did id (.finished reply)

/-- A request is under way from its start. -/
theorem Records.underway_of_started {moment next : Moment U} {id : RequestId} {demand : Demand U}
    (recorded : moment.Records ⟨id, .started demand⟩ next) (fresh : ¬ moment.Knows id) :
    next.Underway id :=
  ⟨⟨demand, recorded.did⟩, fun _ ended => fresh ⟨_, recorded.before ended nofun, rfl⟩⟩

/-- A request that does anything but finish stays under way. -/
theorem Underway.goesOn {moment next : Moment U} {id : RequestId} {event : Event U}
    (underway : moment.Underway id) (recorded : moment.Records ⟨id, event⟩ next)
    (notEnd : ∀ reply, event ≠ .finished reply) : next.Underway id := by
  obtain ⟨⟨demand, began⟩, unfinished⟩ := underway
  refine ⟨⟨demand, recorded.suffix.mem began⟩, fun reply ended => unfinished reply ?_⟩
  exact recorded.before ended (notEnd reply).symm

/-- Whatever others do, a request stays under way. -/
theorem Underway.foreign {moment next : Moment U} {id other : RequestId} {event : Event U}
    (underway : moment.Underway id) (recorded : moment.Records ⟨other, event⟩ next)
    (differs : other ≠ id) : next.Underway id := by
  obtain ⟨⟨demand, began⟩, unfinished⟩ := underway
  refine ⟨⟨demand, recorded.suffix.mem began⟩, fun reply ended => ?_⟩
  rcases recorded.did_iff.mp ended with ⟨here, _⟩ | before
  · exact differs here.symm
  · exact unfinished reply before

/-- The moments that are reached from the empty one if every entry is allowed. -/
inductive Lawful (conduct : Conduct U) : Moment U → Prop where
  | initial : Lawful conduct {}
  | records {moment next : Moment U} {entry : Entry U} :
      Lawful conduct moment → moment.Records entry next → conduct moment entry →
        Lawful conduct next
  | contexts {moment : Moment U} (contexts : Contexts) :
      Lawful conduct moment → Lawful conduct (moment.withContexts contexts)

theorem Lawful.mono {first second : Conduct U} {moment : Moment U}
    (lawful : moment.Lawful first)
    (weaker : ∀ moment entry, first moment entry → second moment entry) :
    moment.Lawful second := by
  induction lawful with
  | initial => exact .initial
  | records _ recorded allowed ih => exact .records ih recorded (weaker _ _ allowed)
  | contexts contexts _ ih => exact .contexts contexts ih

/-- Whatever was done was allowed at its moment. -/
theorem Lawful.allowed_at {conduct : Conduct U} {moment : Moment U} {entry : Entry U}
    {earlier : List (Entry U)} (lawful : moment.Lawful conduct)
    (done : entry :: earlier <:+ moment.history) :
    ∃ before, before.Lawful conduct ∧ before.history = earlier ∧ conduct before entry := by
  induction lawful with
  | initial => cases List.suffix_nil.mp done
  | contexts contexts _ ih => exact ih done
  | @records moment next last lawful recorded allowed ih =>
      rw [recorded.history] at done
      rcases List.suffix_cons_iff.mp done with now | before
      · obtain ⟨rfl, rfl⟩ := List.cons.inj now
        exact ⟨moment, lawful, rfl, allowed⟩
      · exact ih before

/-- Whatever was done was allowed at a moment before. -/
theorem Lawful.allowed {conduct : Conduct U} {moment : Moment U} {entry : Entry U}
    (lawful : moment.Lawful conduct) (done : entry ∈ moment.history) :
    ∃ before, before.Lawful conduct ∧ before.history <:+ moment.history ∧
      conduct before entry := by
  obtain ⟨later, earlier, split⟩ := List.append_of_mem done
  have suffix : entry :: earlier <:+ moment.history := ⟨later, split.symm⟩
  obtain ⟨before, lawful', same, allowed⟩ := lawful.allowed_at suffix
  exact ⟨before, lawful', same ▸ (List.suffix_cons entry earlier).trans suffix, allowed⟩

/-- Time passes: other requests act as `rely` allows, the client changes its contexts, and the
request itself does what `own` allows. -/
inductive Passage (rely : Conduct U) (request : RequestId) (own : Event U → Prop) :
    Moment U → Moment U → Prop where
  | refl (moment : Moment U) : Passage rely request own moment moment
  | foreign {start moment next : Moment U} {entry : Entry U} :
      Passage rely request own start moment → moment.Records entry next →
        entry.request ≠ request → rely moment entry → Passage rely request own start next
  | own {start moment next : Moment U} {event : Event U} :
      Passage rely request own start moment → moment.Records ⟨request, event⟩ next →
        own event → Passage rely request own start next
  | contexts {start moment : Moment U} (contexts : Contexts) :
      Passage rely request own start moment →
        Passage rely request own start (moment.withContexts contexts)

/-- Time passes and the request itself does nothing. -/
abbrev Interference (rely : Conduct U) (request : RequestId) : Moment U → Moment U → Prop :=
  Passage rely request fun _ => False

namespace Passage

variable {rely : Conduct U} {request : RequestId} {own other : Event U → Prop}
  {start moment next : Moment U}

theorem trans (first : Passage rely request own start moment)
    (second : Passage rely request own moment next) : Passage rely request own start next := by
  induction second with
  | refl => exact first
  | foreign _ recorded foreign allowed ih => exact .foreign ih recorded foreign allowed
  | own _ recorded allowed ih => exact .own ih recorded allowed
  | contexts contexts _ ih => exact .contexts contexts ih

theorem mono (passage : Passage rely request own start next)
    (weaker : ∀ event, own event → other event) : Passage rely request other start next := by
  induction passage with
  | refl => exact .refl _
  | foreign _ recorded foreign allowed ih => exact .foreign ih recorded foreign allowed
  | own _ recorded allowed ih => exact .own ih recorded (weaker _ allowed)
  | contexts contexts _ ih => exact .contexts contexts ih

/-- Interference is a passage in which the request may do whatever is said. -/
theorem ofInterference (passage : Interference rely request start next) :
    Passage rely request own start next :=
  passage.mono fun _ impossible => impossible.elim

/-- Nothing that happened is forgotten. -/
theorem suffix (passage : Passage rely request own start next) :
    start.history <:+ next.history := by
  induction passage with
  | refl => exact List.suffix_refl _
  | foreign _ recorded _ _ ih => exact ih.trans recorded.suffix
  | own _ recorded _ ih => exact ih.trans recorded.suffix
  | contexts _ _ ih => exact ih

/-- Whatever a request did since is of its sort. -/
theorem did (passage : Passage rely request own start next) {event : Event U}
    (did : next.Did request event) : start.Did request event ∨ own event := by
  induction passage with
  | refl => exact .inl did
  | contexts _ _ ih => exact ih did
  | foreign _ recorded differs _ ih =>
      rcases recorded.did_iff.mp did with ⟨same, _⟩ | before
      · exact absurd same.symm differs
      · exact ih before
  | own _ recorded allowed ih =>
      rcases recorded.did_iff.mp did with ⟨_, rfl⟩ | before
      · exact .inr allowed
      · exact ih before

end Passage

/-- A statement about moments that lasts while others act as `rely` allows and the request itself
does what `own` allows. -/
def Stable (rely : Conduct U) (request : RequestId) (own : Event U → Prop)
    (holds : Moment U → Prop) : Prop :=
  ∀ {moment next : Moment U}, Passage rely request own moment next → holds moment → holds next

end Moment

open Moment

/-- A program adds only entries that `guar` allows, if in between others add only entries that
`rely` allows, and whenever it is done `post` holds of its result and the moment. -/
def Program.Keeps (rely guar : Conduct U) (request : RequestId) (post : α → Moment U → Prop) :
    Program U α → Moment U → Prop
  | .done result, start =>
      ∀ moment, Interference rely request start moment → moment.Lawful rely →
        post result moment
  | .perform operation next, start =>
      ∀ moment, Interference rely request start moment → moment.Lawful rely →
        ∀ answer after, moment.Records ⟨request, .performed operation answer⟩ after →
          guar moment ⟨request, .performed operation answer⟩ ∧
            (next answer).Keeps rely guar request post after
  | .ask call next, start =>
      ∀ moment, Interference rely request start moment → moment.Lawful rely →
        guar moment ⟨request, .called call⟩ ∧
          ∀ begun, moment.Records ⟨request, .called call⟩ begun →
            ∀ later, Interference rely request begun later → later.Lawful rely →
              ∀ answer after, later.Records ⟨request, .returned call answer⟩ after →
                guar later ⟨request, .returned call answer⟩ ∧
                  (next answer).Keeps rely guar request post after
  | .never, _ => True

namespace Program.Keeps

variable {rely guar : Conduct U} {request : RequestId} {program : Program U α}
  {start : Moment U}

/-- What a program keeps to from a moment on it keeps to from any later moment on. -/
theorem later {post : α → Moment U → Prop} {moment : Moment U}
    (passage : Interference rely request start moment)
    (keeps : program.Keeps rely guar request post start) :
    program.Keeps rely guar request post moment := by
  cases program with
  | done result => exact fun moment more => keeps moment (passage.trans more)
  | perform operation next => exact fun moment more => keeps moment (passage.trans more)
  | ask call next => exact fun moment more => keeps moment (passage.trans more)
  | never => trivial

/-- A weaker statement about the result.  It may use that the moment is lawful. -/
theorem mono {post weaker : α → Moment U → Prop}
    (keeps : program.Keeps rely guar request post start)
    (implies : ∀ result moment, moment.Lawful rely → post result moment →
      weaker result moment) :
    program.Keeps rely guar request weaker start := by
  induction program generalizing start with
  | done result =>
      exact fun moment passage lawful => implies _ _ lawful (keeps moment passage lawful)
  | perform operation next ih =>
      intro moment passage lawful answer after recorded
      obtain ⟨allowed, rest⟩ := keeps moment passage lawful answer after recorded
      exact ⟨allowed, ih answer rest⟩
  | ask call next ih =>
      intro moment passage lawful
      obtain ⟨allowed, rest⟩ := keeps moment passage lawful
      refine ⟨allowed, ?_⟩
      intro begun recorded later passage' lawful' answer after recorded'
      obtain ⟨allowed', rest'⟩ :=
        rest begun recorded later passage' lawful' answer after recorded'
      exact ⟨allowed', ih answer rest'⟩
  | never => trivial

/-- A program that keeps to a conduct keeps to a weaker one. -/
theorem mono_guar {guar' : Conduct U} {post : α → Moment U → Prop}
    (keeps : program.Keeps rely guar request post start)
    (weaker : ∀ moment entry, guar moment entry → guar' moment entry) :
    program.Keeps rely guar' request post start := by
  induction program generalizing start with
  | done result => exact keeps
  | perform operation next ih =>
      intro moment passage lawful answer after recorded
      obtain ⟨allowed, rest⟩ := keeps moment passage lawful answer after recorded
      exact ⟨weaker _ _ allowed, ih answer rest⟩
  | ask call next ih =>
      intro moment passage lawful
      obtain ⟨allowed, rest⟩ := keeps moment passage lawful
      refine ⟨weaker _ _ allowed, ?_⟩
      intro begun recorded later passage' lawful' answer after recorded'
      obtain ⟨allowed', rest'⟩ :=
        rest begun recorded later passage' lawful' answer after recorded'
      exact ⟨weaker _ _ allowed', ih answer rest'⟩
  | never => trivial

/-- What a program comes to does not depend on a conduct that concerns none of its events. -/
theorem regardless {guar' : Conduct U} {post : α → Moment U → Prop}
    (keeps : program.Keeps rely guar request post start)
    (free : ∀ moment (event : Event U), (∀ reply, event ≠ .finished reply) →
      guar' moment ⟨request, event⟩) :
    program.Keeps rely guar' request post start := by
  induction program generalizing start with
  | done result => exact keeps
  | perform operation next ih =>
      intro moment passage lawful answer after recorded
      obtain ⟨_, rest⟩ := keeps moment passage lawful answer after recorded
      exact ⟨free _ _ nofun, ih answer rest⟩
  | ask call next ih =>
      intro moment passage lawful
      obtain ⟨_, rest⟩ := keeps moment passage lawful
      refine ⟨free _ _ nofun, ?_⟩
      intro begun recorded later passage' lawful' answer after recorded'
      obtain ⟨_, rest'⟩ :=
        rest begun recorded later passage' lawful' answer after recorded'
      exact ⟨free _ _ nofun, ih answer rest'⟩
  | never => trivial

/-- Two conducts and two statements about the result can be shown one after the other. -/
theorem and {guar' : Conduct U} {post post' : α → Moment U → Prop}
    (first : program.Keeps rely guar request post start)
    (second : program.Keeps rely guar' request post' start) :
    program.Keeps rely (guar.and guar') request
      (fun result moment => post result moment ∧ post' result moment) start := by
  induction program generalizing start with
  | done result =>
      exact fun moment passage lawful =>
        ⟨first moment passage lawful, second moment passage lawful⟩
  | perform operation next ih =>
      intro moment passage lawful answer after recorded
      obtain ⟨allowed, rest⟩ := first moment passage lawful answer after recorded
      obtain ⟨allowed', rest'⟩ := second moment passage lawful answer after recorded
      exact ⟨⟨allowed, allowed'⟩, ih answer rest rest'⟩
  | ask call next ih =>
      intro moment passage lawful
      obtain ⟨allowed, rest⟩ := first moment passage lawful
      obtain ⟨allowed', rest'⟩ := second moment passage lawful
      refine ⟨⟨allowed, allowed'⟩, ?_⟩
      intro begun recorded later passage' lawful' answer after recorded'
      obtain ⟨done, more⟩ := rest begun recorded later passage' lawful' answer after recorded'
      obtain ⟨done', more'⟩ := rest' begun recorded later passage' lawful' answer after recorded'
      exact ⟨⟨done, done'⟩, ih answer more more'⟩
  | never => trivial

/-- At the end the history is longer than at the start, and nothing of it is lost. -/
theorem grows {post : α → Moment U → Prop}
    (keeps : program.Keeps rely guar request post start) :
    program.Keeps rely guar request
      (fun result moment => start.history <:+ moment.history ∧ post result moment) start := by
  induction program generalizing start with
  | done result =>
      exact fun moment passage lawful => ⟨passage.suffix, keeps moment passage lawful⟩
  | perform operation next ih =>
      intro moment passage lawful answer after recorded
      obtain ⟨allowed, rest⟩ := keeps moment passage lawful answer after recorded
      refine ⟨allowed, (ih answer rest).mono ?_⟩
      exact fun result last _ reached =>
        ⟨(passage.suffix.trans recorded.suffix).trans reached.1, reached.2⟩
  | ask call next ih =>
      intro moment passage lawful
      obtain ⟨allowed, rest⟩ := keeps moment passage lawful
      refine ⟨allowed, ?_⟩
      intro begun recorded later passage' lawful' answer after recorded'
      obtain ⟨allowed', rest'⟩ :=
        rest begun recorded later passage' lawful' answer after recorded'
      refine ⟨allowed', (ih answer rest').mono ?_⟩
      intro result last _ reached
      have begins := passage.suffix.trans recorded.suffix
      have returns := passage'.suffix.trans recorded'.suffix
      exact ⟨(begins.trans returns).trans reached.1, reached.2⟩
  | never => trivial

/-- It is enough to keep to the conduct from every later moment on. -/
theorem ofLater {post : α → Moment U → Prop}
    (keeps : ∀ moment, Interference rely request start moment → moment.Lawful rely →
      program.Keeps rely guar request post moment) :
    program.Keeps rely guar request post start := by
  cases program with
  | done result => exact fun moment passage lawful => keeps moment passage lawful _ (.refl _) lawful
  | perform operation next =>
      exact fun moment passage lawful => keeps moment passage lawful _ (.refl _) lawful
  | ask call next =>
      exact fun moment passage lawful => keeps moment passage lawful _ (.refl _) lawful
  | never => trivial

/-- What holds when a program is done goes on to hold. -/
theorem always {post : α → Moment U → Prop}
    (keeps : program.Keeps rely guar request post start) :
    program.Keeps rely guar request
      (fun result moment => ∀ later, Interference rely request moment later →
        later.Lawful rely → post result later) start := by
  induction program generalizing start with
  | done result =>
      exact fun moment passage _ later more lawful => keeps later (passage.trans more) lawful
  | perform operation next ih =>
      intro moment passage lawful answer after recorded
      obtain ⟨allowed, rest⟩ := keeps moment passage lawful answer after recorded
      exact ⟨allowed, ih answer rest⟩
  | ask call next ih =>
      intro moment passage lawful
      obtain ⟨allowed, rest⟩ := keeps moment passage lawful
      refine ⟨allowed, ?_⟩
      intro begun recorded later passage' lawful' answer after recorded'
      obtain ⟨allowed', rest'⟩ :=
        rest begun recorded later passage' lawful' answer after recorded'
      exact ⟨allowed', ih answer rest'⟩
  | never => trivial

/-- One program after another. -/
theorem andThen {middle : α → Moment U → Prop} {post : β → Moment U → Prop}
    {next : α → Program U β}
    (first : program.Keeps rely guar request middle start)
    (second : ∀ result moment, moment.Lawful rely → middle result moment →
      (next result).Keeps rely guar request post moment) :
    (program.andThen next).Keeps rely guar request post start := by
  induction program generalizing start with
  | done result =>
      exact ofLater fun moment passage lawful =>
        second result moment lawful (first moment passage lawful)
  | perform operation after ih =>
      intro moment passage lawful answer reached recorded
      obtain ⟨allowed, rest⟩ := first moment passage lawful answer reached recorded
      exact ⟨allowed, ih answer rest⟩
  | ask call after ih =>
      intro moment passage lawful
      obtain ⟨allowed, rest⟩ := first moment passage lawful
      refine ⟨allowed, ?_⟩
      intro begun recorded later passage' lawful' answer reached recorded'
      obtain ⟨allowed', rest'⟩ :=
        rest begun recorded later passage' lawful' answer reached recorded'
      exact ⟨allowed', ih answer rest'⟩
  | never => trivial

end Program.Keeps

/-- Any program keeps to a conduct that allows every event of its request. -/
theorem Program.keeps_any {rely guar : Conduct U} {request : RequestId} {start : Moment U}
    (program : Program U α) (allows : ∀ moment event, start.history <:+ moment.history →
      moment.Lawful rely → guar moment ⟨request, event⟩) :
    program.Keeps rely guar request (fun _ _ => True) start := by
  induction program generalizing start with
  | done result => exact fun _ _ _ => trivial
  | perform operation next ih =>
      intro middle passage lawful answer after recorded
      have grown := passage.suffix.trans recorded.suffix
      exact ⟨allows _ _ passage.suffix lawful, ih answer fun moment event grows =>
        allows moment event (grown.trans grows)⟩
  | ask call next ih =>
      intro middle passage lawful
      refine ⟨allows _ _ passage.suffix lawful, ?_⟩
      intro begun began later passage' lawful' answer after returned
      have waited := passage.suffix.trans (began.suffix.trans passage'.suffix)
      exact ⟨allows _ _ waited lawful', ih answer fun moment event grows =>
        allows moment event (waited.trans (returned.suffix.trans grows))⟩
  | never => trivial

/-- All events of a program, whatever the answers, are of one sort, and so are its results, to which
it comes. -/
def Program.Only (own : Event U → Prop) (yields : α → Prop) : Program U α → Prop
  | .done result => yields result
  | .perform operation next =>
      ∀ answer, own (.performed operation answer) ∧ (next answer).Only own yields
  | .ask call next =>
      own (.called call) ∧
        ∀ answer, own (.returned call answer) ∧ (next answer).Only own yields
  | .never => False

namespace Program.Only

variable {own : Event U → Prop} {yields : α → Prop} {program : Program U α}

theorem mono {other : Event U → Prop} {weaker : α → Prop} (only : program.Only own yields)
    (events : ∀ event, own event → other event)
    (results : ∀ result, yields result → weaker result) : program.Only other weaker := by
  induction program with
  | done result => exact results _ only
  | perform operation next ih =>
      exact fun answer => ⟨events _ (only answer).1, ih answer (only answer).2⟩
  | ask call next ih =>
      exact ⟨events _ only.1, fun answer => ⟨events _ (only.2 answer).1, ih answer (only.2 answer).2⟩⟩
  | never => exact only.elim

/-- What is known of a program in two ways is known at once. -/
theorem and {other : Event U → Prop} {more : α → Prop} (first : program.Only own yields)
    (second : program.Only other more) :
    program.Only (fun event => own event ∧ other event) fun result =>
      yields result ∧ more result := by
  induction program with
  | done result => exact ⟨first, second⟩
  | perform operation after ih =>
      exact fun answer =>
        ⟨⟨(first answer).1, (second answer).1⟩, ih answer (first answer).2 (second answer).2⟩
  | ask call after ih =>
      exact ⟨⟨first.1, second.1⟩, fun answer => ⟨⟨(first.2 answer).1, (second.2 answer).1⟩,
        ih answer (first.2 answer).2 (second.2 answer).2⟩⟩
  | never => exact first.elim

/-- One program after another does what both may do. -/
theorem andThen {final : β → Prop} {next : α → Program U β} (first : program.Only own yields)
    (second : ∀ result, yields result → (next result).Only own final) :
    (program.andThen next).Only own final := by
  induction program with
  | done result => exact second result first
  | perform operation after ih =>
      exact fun answer => ⟨(first answer).1, ih answer (first answer).2⟩
  | ask call after ih =>
      exact ⟨first.1, fun answer => ⟨(first.2 answer).1, ih answer (first.2 answer).2⟩⟩
  | never => exact first.elim

/-- What comes after a program matters only for the results that it comes to. -/
theorem andThen_congr {next other : α → Program U β} (only : program.Only own yields)
    (agree : ∀ result, yields result → next result = other result) :
    program.andThen next = program.andThen other := by
  induction program with
  | done result => exact agree result only
  | perform operation after ih =>
      exact congrArg (Program.perform operation) (funext fun answer => ih answer (only answer).2)
  | ask call after ih =>
      exact congrArg (Program.ask call) (funext fun answer => ih answer (only.2 answer).2)
  | never => rfl

/-- A program whose events are all harmless keeps to the conduct. -/
theorem keeps {rely guar : Conduct U} {request : RequestId} {start : Moment U}
    (only : program.Only own yields)
    (harmless : ∀ moment event, Passage rely request own start moment →
      moment.Lawful rely → own event → guar moment ⟨request, event⟩) :
    program.Keeps rely guar request
      (fun result moment => yields result ∧ Passage rely request own start moment) start := by
  suffices ∀ moment, Passage rely request own start moment →
      program.Keeps rely guar request
        (fun result last => yields result ∧ Passage rely request own start last) moment from
    this start (.refl _)
  induction program with
  | done result =>
      exact fun moment before last passage _ => ⟨only, before.trans passage.ofInterference⟩
  | perform operation next ih =>
      intro moment before middle passage lawful answer after recorded
      have reached := before.trans passage.ofInterference
      refine ⟨harmless _ _ reached lawful (only answer).1, ih answer (only answer).2 after ?_⟩
      exact .own reached recorded (only answer).1
  | ask call next ih =>
      intro moment before middle passage lawful
      have reached := before.trans passage.ofInterference
      refine ⟨harmless _ _ reached lawful only.1, ?_⟩
      intro begun recorded later passage' lawful' answer after recorded'
      have called := (Passage.own reached recorded only.1).trans passage'.ofInterference
      refine ⟨harmless _ _ called lawful' (only.2 answer).1, ih answer (only.2 answer).2 after ?_⟩
      exact .own called recorded' (only.2 answer).1
  | never => exact only.elim

/-- What is known of the sort of a program, added to what it keeps to. -/
theorem along {rely guar : Conduct U} {request : RequestId} {start : Moment U}
    {post : α → Moment U → Prop} (only : program.Only own yields)
    (keeps : program.Keeps rely guar request post start) :
    program.Keeps rely guar request
      (fun result moment =>
        post result moment ∧ yields result ∧ Passage rely request own start moment) start := by
  suffices ∀ moment, Passage rely request own start moment →
      program.Keeps rely guar request post moment → program.Keeps rely guar request
        (fun result last => post result last ∧ yields result ∧ Passage rely request own start last)
          moment from this start (.refl _) keeps
  clear keeps
  induction program with
  | done result =>
      exact fun moment before keeps last passage lawful =>
        ⟨keeps last passage lawful, only, before.trans passage.ofInterference⟩
  | perform operation next ih =>
      intro moment before keeps middle passage lawful answer after recorded
      obtain ⟨allowed, rest⟩ := keeps middle passage lawful answer after recorded
      refine ⟨allowed, ih answer (only answer).2 after ?_ rest⟩
      exact .own (before.trans passage.ofInterference) recorded (only answer).1
  | ask call next ih =>
      intro moment before keeps middle passage lawful
      obtain ⟨allowed, rest⟩ := keeps middle passage lawful
      refine ⟨allowed, ?_⟩
      intro begun recorded later passage' lawful' answer after recorded'
      obtain ⟨allowed', rest'⟩ :=
        rest begun recorded later passage' lawful' answer after recorded'
      have called := (Passage.own (before.trans passage.ofInterference) recorded only.1).trans
        passage'.ofInterference
      exact ⟨allowed', ih answer (only.2 answer).2 after (.own called recorded' (only.2 answer).1)
        rest'⟩
  | never => exact only.elim

/-- A program whose events are harmless as long as a statement holds, which they preserve. -/
theorem upholds {rely guar : Conduct U} {request : RequestId} {start : Moment U}
    {holds : Moment U → Prop} (only : program.Only own yields)
    (stable : Stable rely request own holds)
    (harmless : ∀ moment event, holds moment → own event → guar moment ⟨request, event⟩)
    (initially : holds start) :
    program.Keeps rely guar request (fun result moment => yields result ∧ holds moment) start := by
  refine (only.keeps ?_).mono ?_
  · exact fun moment event passage _ allowed =>
      harmless moment event (stable passage initially) allowed
  · exact fun result moment _ reached => ⟨reached.1, stable reached.2 initially⟩

end Program.Only

/-! ## Requests -/

namespace Request

/-- The judgement for a request, whose results are values and errors. -/
abbrev Keeps (rely guar : Conduct U) (id : RequestId)
    (post : Except Error α → Moment U → Prop) (request : Request U α) (start : Moment U) : Prop :=
  Program.Keeps rely guar id post request.run start

/-- The sort of a request, whose results are values and errors. -/
abbrev Only (own : Event U → Prop) (yields : Except Error α → Prop) (request : Request U α) :
    Prop :=
  Program.Only own yields request.run

variable {rely guar : Conduct U} {id : RequestId} {start : Moment U}

theorem keeps_pure {post : Except Error α → Moment U → Prop} {value : α}
    (holds : ∀ moment, Interference rely id start moment → moment.Lawful rely →
      post (.ok value) moment) :
    Keeps rely guar id post (pure value) start :=
  holds

theorem keeps_fail {post : Except Error α → Moment U → Prop} {error : Error}
    (holds : ∀ moment, Interference rely id start moment → moment.Lawful rely →
      post (.error error) moment) :
    Keeps rely guar id post (fail error) start :=
  holds

theorem keeps_ofExcept {post : Except Error α → Moment U → Prop} {outcome : Except Error α}
    (holds : ∀ moment, Interference rely id start moment → moment.Lawful rely →
      post outcome moment) :
    Keeps rely guar id post (ofExcept outcome) start :=
  holds

/-- One request after another. -/
theorem keeps_bind {middle : Except Error α → Moment U → Prop}
    {post : Except Error β → Moment U → Prop} {request : Request U α} {next : α → Request U β}
    (first : Keeps rely guar id middle request start)
    (failed : ∀ error moment, moment.Lawful rely → middle (.error error) moment →
      post (.error error) moment)
    (second : ∀ value moment, moment.Lawful rely → middle (.ok value) moment →
      Keeps rely guar id post (next value) moment) :
    Keeps rely guar id post (request >>= next) start := by
  refine Program.Keeps.andThen first.always ?_
  intro outcome moment lawful holds
  cases outcome with
  | ok value => exact second value moment lawful (holds moment (.refl _) lawful)
  | error error =>
      exact fun later passage lawful' => failed error later lawful' (holds later passage lawful')

/-- A program that is lifted keeps to a conduct as the program does. -/
theorem keeps_lift {post : Except Error α → Moment U → Prop} {program : Program U α}
    (keeps : program.Keeps rely guar id (fun result => post (.ok result)) start) :
    Keeps rely guar id post (ExceptT.lift program) start :=
  Program.Keeps.andThen keeps.always fun _ _ _ holds => holds

/-- An operation, and then another request. -/
theorem keeps_bind_act {operation : Operation U} {post : Except Error α → Moment U → Prop}
    {next : operation.Answer → Request U α}
    (performs : ∀ moment answer after, Interference rely id start moment →
      moment.Lawful rely → moment.Records ⟨id, .performed operation answer⟩ after →
        guar moment ⟨id, .performed operation answer⟩ ∧
          Keeps rely guar id post (next answer) after) :
    Keeps rely guar id post (act operation >>= next) start :=
  fun moment passage lawful answer after recorded =>
    performs moment answer after passage lawful recorded

/-- A call of the client, and then another request. -/
theorem keeps_bind_call {call : Call U} {post : Except Error α → Moment U → Prop}
    {next : call.Answer → Request U α}
    (calls : ∀ moment, Interference rely id start moment → moment.Lawful rely →
      guar moment ⟨id, .called call⟩ ∧
        ∀ begun, moment.Records ⟨id, .called call⟩ begun →
          ∀ later, Interference rely id begun later → later.Lawful rely →
            ∀ answer after, later.Records ⟨id, .returned call answer⟩ after →
              guar later ⟨id, .returned call answer⟩ ∧
                Keeps rely guar id post (next answer) after) :
    Keeps rely guar id post (callClient call >>= next) start :=
  calls

/-- A program that cannot fail, and then a request. -/
theorem keeps_bind_lift {middle : α → Moment U → Prop} {post : Except Error β → Moment U → Prop}
    {program : Program U α} {next : α → Request U β}
    (first : program.Keeps rely guar id middle start)
    (second : ∀ result moment, moment.Lawful rely → middle result moment →
      Keeps rely guar id post (next result) moment) :
    Keeps rely guar id post (ExceptT.lift program >>= next) start := by
  have lifted : Keeps rely guar id
      (fun outcome moment => ∃ result, outcome = .ok result ∧ middle result moment)
      (ExceptT.lift program) start := by
    refine keeps_lift (first.mono ?_)
    exact fun result moment _ holds => ⟨result, rfl, holds⟩
  refine keeps_bind lifted ?_ ?_
  · rintro error moment _ ⟨_, impossible, _⟩
    cases impossible
  · rintro result moment lawful ⟨_, same, holds⟩
    exact second result moment lawful (Except.ok.inj same ▸ holds)

/-- An outcome that is known, and then another request if it is not an error. -/
theorem keeps_bind_ofExcept {post : Except Error β → Moment U → Prop} {outcome : Except Error α}
    {next : α → Request U β}
    (failed : ∀ error, outcome = .error error → ∀ moment, Interference rely id start moment →
      moment.Lawful rely → post (.error error) moment)
    (second : ∀ value, outcome = .ok value → Keeps rely guar id post (next value) start) :
    Keeps rely guar id post (ofExcept outcome >>= next) start := by
  cases outcome with
  | ok value => exact second value rfl
  | error error => exact failed error rfl

/-- A request, and another in its place if it fails. -/
theorem keeps_tryCatch {middle post : Except Error α → Moment U → Prop} {request : Request U α}
    {handle : Error → Request U α}
    (first : Keeps rely guar id middle request start)
    (succeeds : ∀ value moment, moment.Lawful rely → middle (.ok value) moment →
      post (.ok value) moment)
    (handles : ∀ error moment, moment.Lawful rely → middle (.error error) moment →
      Keeps rely guar id post (handle error) moment) :
    Keeps rely guar id post (tryCatch request handle) start := by
  refine Program.Keeps.andThen first.always ?_
  intro outcome moment lawful holds
  cases outcome with
  | ok value =>
      exact fun later passage lawful' => succeeds value later lawful' (holds later passage lawful')
  | error error => exact handles error moment lawful (holds moment (.refl _) lawful)

/-- One request after another does what both may do. -/
theorem only_bind {own : Event U → Prop} {middle : Except Error α → Prop}
    {yields : Except Error β → Prop} {request : Request U α} {next : α → Request U β}
    (first : Only own middle request)
    (failed : ∀ error, middle (.error error) → yields (.error error))
    (second : ∀ value, middle (.ok value) → Only own yields (next value)) :
    Only own yields (request >>= next) := by
  refine Program.Only.andThen first ?_
  intro outcome holds
  cases outcome with
  | ok value => exact second value holds
  | error error => exact failed error holds

/-- An operation that may be performed goes before a request. -/
theorem only_bind_act {own : Event U → Prop} {yields : Except Error α → Prop}
    {operation : Operation U} {next : operation.Answer → Request U α}
    (performs : ∀ answer, own (.performed operation answer) ∧ Only own yields (next answer)) :
    Only own yields (act operation >>= next) :=
  performs

/-- A program that is lifted goes before a request. -/
theorem only_bind_lift {own : Event U → Prop} {middle : α → Prop}
    {yields : Except Error β → Prop} {program : Program U α} {next : α → Request U β}
    (first : program.Only own middle)
    (second : ∀ result, middle result → Only own yields (next result)) :
    Only own yields (ExceptT.lift program >>= next) := by
  have lifted : Only own (fun outcome => ∃ result, outcome = .ok result ∧ middle result)
      (ExceptT.lift program) :=
    Program.Only.andThen first fun result holds => ⟨result, rfl, holds⟩
  refine only_bind lifted ?_ ?_
  · rintro error ⟨_, impossible, _⟩
    cases impossible
  · rintro result ⟨_, same, holds⟩
    exact second result (Except.ok.inj same ▸ holds)

/-- An outcome that is known goes before a request. -/
theorem only_bind_ofExcept {own : Event U → Prop} {yields : Except Error β → Prop}
    {outcome : Except Error α} {next : α → Request U β}
    (failed : ∀ error, outcome = .error error → yields (.error error))
    (second : ∀ value, outcome = .ok value → Only own yields (next value)) :
    Only own yields (ofExcept outcome >>= next) := by
  cases outcome with
  | ok value => exact second value rfl
  | error error => exact failed error rfl

/-- A function that may be called goes before a request. -/
theorem only_bind_call {own : Event U → Prop} {yields : Except Error α → Prop}
    {call : Call U} {next : call.Answer → Request U α} (called : own (.called call))
    (returns : ∀ answer, own (.returned call answer) ∧ Only own yields (next answer)) :
    Only own yields (callClient call >>= next) :=
  ⟨called, returns⟩

end Request

end Provision
