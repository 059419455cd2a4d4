import Conduit.Proofs.Script.Execution

/-!
Scripts that announce their calls of `print`. Such a script does what it does without the announcements;
so these tell which calls are executed, and what follows each of them.
-/
namespace Conduit

def Behaviour.tells {α : Type} : Behaviour α → Bool
  | .ask (.tell _) _ => true
  | _ => false

namespace Script

namespace Utterance

def scope (u : Utterance) : ScopeInfo :=
  { depth := u.line, name := u.text, bindings := if u.given then ["value"] else [] }

def ofScope (s : ScopeInfo) : Utterance := ⟨s.depth, s.name, !s.bindings.isEmpty⟩

@[simp] theorem ofScope_scope (u : Utterance) : ofScope u.scope = u := by
  obtain ⟨line, text, given⟩ := u
  cases given <;> rfl

def deeds (debug : Bool) (u : Utterance) : List Deed :=
  .print (.line u.text) :: if debug then [.publish (.executionPaused u.shownLine true)] else []

def say (debug : Bool) (u : Utterance) (next : Conduct) : Conduct :=
  .ask (.print .out (.line u.text)) fun _ =>
    if debug then .ask (.tell (.executionPaused u.shownLine true)) fun _ => next else next

end Utterance

def announced? : Exchange → Option Utterance
  | ⟨.tell (.stackPushed scope), _⟩ => some (.ofScope scope)
  | _ => none

def unannounced (xs : List Exchange) : List Exchange := xs.filter fun x => (announced? x).isNone

namespace Eval

def announce (u : Utterance) : Eval Unit := ask (.tell (.stackPushed u.scope))

/-- A built-in function, announced if it is `print`. A call of it is executed if it comes that far. -/
def announced (s : Setting) (name : String) (args : List Value) (place : Position) : Eval Applied := do
  poll place
  match Utterance.of? name args place with
  | some u => announce u
  | none => pure ()
  native s name args place

end Eval

def Setting.announcing (s : Setting) : Functions := ⟨s.program, Eval.announced s⟩

/-! Announcements change nothing -/

/-- The second conduct is the first with its calls of `print` announced. -/
inductive Announces (debug : Bool) : Conduct → Conduct → Prop
  | done (failure : Option Fault) : Announces debug (.done failure) (.done failure)
  | plain {r : Request} {next next' : r.Reply → Conduct} (hr : r.IsPlain)
      (h : ∀ reply, Announces debug (next reply) (next' reply)) :
      Announces debug (.ask r next) (.ask r next')
  | said (u : Utterance) {next next' : Conduct} (h : Announces debug next next') :
      Announces debug (u.say debug next)
        (.ask (.tell (.stackPushed u.scope)) fun _ => u.say debug next')

namespace Eval

def pass (debug : Bool) (next : Conduct) : Conduct :=
  if debug then
    .ask .awaitGate fun (outcome : GateOutcome) =>
      match outcome with
      | .resumed => next
      | .aborted => .ask (.log .debug abortedMessage) fun _ => next
  else next

theorem printLine_eq_say {s : Setting} (hs : s.console = true) (u : Utterance) (env : Env)
    (k : Except Exit Unit → Env → Conduct) :
    printLine s u.text u.shownLine env k = u.say s.debug (pass s.debug (k (.ok ()) env)) := by
  unfold printLine
  rw [if_pos hs]
  refine congrArg (Behaviour.ask _) (funext fun _ => ?_)
  cases s.debug with
  | false => rfl
  | true =>
    refine congrArg (Behaviour.ask _) (funext fun _ => congrArg (Behaviour.ask _) ?_)
    funext outcome
    cases outcome <;> rfl

theorem native_eq_say {s : Setting} (hs : s.console = true) {name : String} {args : List Value}
    {place : Position} {u : Utterance} (hu : Utterance.of? name args place = some u) (env : Env)
    (k : Except Exit Applied → Env → Conduct) :
    native s name args place env k =
      u.say s.debug (pass s.debug (k (.ok ⟨.unit, none⟩) env)) := by
  rw [native_of_utterance s hu]
  exact printLine_eq_say hs u env _

end Eval

theorem Announces.pass {debug : Bool} {next next' : Conduct} (h : Announces debug next next') :
    Announces debug (Eval.pass debug next) (Eval.pass debug next') := by
  cases debug with
  | false => exact h
  | true =>
    refine .plain trivial fun outcome => ?_
    cases outcome with
    | resumed => exact h
    | aborted => exact .plain trivial fun _ => h

theorem announces_run {s : Setting} (hs : s.console = true) :
    Announces s.debug s.run s.announcing.run := by
  have hC : Eval.Respected (Announces s.debug) := fun _ _ _ hr h => .plain hr h
  refine hC.run rfl (fun {_ _ name place} hp args => ?_) fun failure _ => .done failure
  refine hC.passing.andThen (hC.passing.polled hp) fun _ => ?_
  cases hu : Utterance.of? name args place with
  | none => exact hC.ofNative hp s hu
  | some u =>
    intro env k k' hk
    change Announces s.debug (Eval.native s name args place env k)
      (.ask (.tell (.stackPushed u.scope)) fun _ => Eval.native s name args place env k')
    rw [Eval.native_eq_say hs hu, Eval.native_eq_say hs hu]
    exact .said u (hk (.ok _) env nofun).pass

/-! What is said -/

def isSpeech : Deed → Bool
  | .print (.line _) => true
  | .publish (.executionPaused _ true) => true
  | _ => false

inductive Speech (debug : Bool) : List Utterance → List Deed → Prop
  | silent : Speech debug [] []
  | other {us : List Utterance} {ds : List Deed} {d : Deed} (hd : isSpeech d = false)
      (h : Speech debug us ds) : Speech debug us (d :: ds)
  | said {us : List Utterance} {ds : List Deed} (u : Utterance) (h : Speech debug us ds) :
      Speech debug (u :: us) (u.deeds debug ++ ds)

def checkpoint? : SessionEvent → Option (Option Nat)
  | .executionPaused line true => some line
  | _ => none

def checkpoints (es : List SessionEvent) : List (Option Nat) := es.filterMap checkpoint?

@[simp] theorem checkpoints_append (es fs : List SessionEvent) :
    checkpoints (es ++ fs) = checkpoints es ++ checkpoints fs :=
  List.filterMap_append

variable {debug : Bool} {us : List Utterance} {ds es : List Deed} {policy : PausePolicy} {t : Tally}

theorem Speech.prefixed (h : Speech debug us ds) (hes : ∀ e ∈ es, isSpeech e = false) :
    Speech debug us (es ++ ds) := by
  induction es with
  | nil => exact h
  | cons e es ih =>
    obtain ⟨he, hes⟩ := List.forall_mem_cons.mp hes
    exact .other he (ih hes)

theorem Speech.checkpoints_eq (h : Speech debug us ds) :
    checkpoints (Deed.publications ds) = if debug then us.map Utterance.shownLine else [] := by
  induction h with
  | silent => cases debug <;> rfl
  | @other us ds d hd h ih =>
    rw [← ih]
    cases d with
    | publish e =>
      have he : checkpoint? e = none := by
        unfold checkpoint?
        split
        · cases hd
        · rfl
      exact List.filterMap_cons_none he
    | _ => rfl
  | said u h ih =>
    rw [Deed.publications_append, checkpoints_append, ih]
    cases debug <;> rfl

theorem isSpeech_deeds {r : Request} (hr : r.IsPlain) (reply : r.Reply) :
    ∀ d ∈ r.deeds policy t reply, isSpeech d = false := by
  cases r with
  | print stream e =>
    intro d hd
    obtain rfl := List.mem_singleton.mp hd
    cases e with
    | line text => cases stream <;> exact absurd hr id
    | _ => rfl
  | tell signal =>
    intro d hd
    obtain ⟨e, he, rfl⟩ := List.mem_map.mp hd
    cases signal with
    | executionPaused line wasPrint =>
      cases wasPrint with
      | true => exact absurd hr id
      | false => cases policy <;> simp [Signal.events] at he <;> rcases he with rfl | rfl <;> rfl
    | _ => simp only [Signal.events, List.mem_singleton] at he; subst he; rfl
  | read logged =>
    cases reply with
    | none => exact fun _ hd => by cases hd
    | some line => exact fun d hd => by rw [List.mem_singleton.mp hd]; rfl
  | awaitGate => exact fun d hd => by rw [List.mem_singleton.mp hd]; rfl
  | _ => exact fun _ hd => by cases hd

theorem announced?_of_isPlain {r : Request} (hr : r.IsPlain) (reply : r.Reply) :
    announced? ⟨r, reply⟩ = none := by
  unfold announced?
  split
  · rename_i h
    cases h
    exact absurd hr id
  · rfl

namespace Utterance
variable {u : Utterance} {next c : Conduct} {xs : List Exchange}

def exchanges (debug : Bool) (u : Utterance) : List Exchange :=
  ⟨.print .out (.line u.text), ()⟩ ::
    if debug then [⟨.tell (.executionPaused u.shownLine true), ()⟩] else []

def announcement (u : Utterance) : Exchange := ⟨.tell (.stackPushed u.scope), ()⟩

theorem announced_exchanges (debug : Bool) (u : Utterance) (ys : List Exchange) :
    (u.announcement :: (u.exchanges debug ++ ys)).filterMap announced? = u :: ys.filterMap announced? := by
  have hu : announced? u.announcement = some u := congrArg some u.ofScope_scope
  have hsaid : (u.exchanges debug).filterMap announced? = [] := by cases debug <;> rfl
  rw [List.filterMap_cons_some hu, List.filterMap_append, hsaid, List.nil_append]

theorem reaches_say (h : next.Reaches xs c) : (u.say debug next).Reaches (u.exchanges debug ++ xs) c := by
  cases debug with
  | false => exact .more h
  | true => exact .more (.more h)

/-- A script that has printed the line is past the checkpoint too if it does not stop there. -/
theorem of_reaches_say (h : (u.say debug next).Reaches xs c) (hc : c.tells = false) :
    xs = [] ∧ c = u.say debug next ∨ ∃ ys, xs = u.exchanges debug ++ ys ∧ next.Reaches ys c := by
  cases debug with
  | false =>
    cases h with
    | refl => exact .inl ⟨rfl, rfl⟩
    | more h => exact .inr ⟨_, rfl, h⟩
  | true =>
    cases h with
    | refl => exact .inl ⟨rfl, rfl⟩
    | more h =>
      cases h with
      | refl => cases hc
      | more h => exact .inr ⟨_, rfl, h⟩

theorem speech_exchanges (u : Utterance) (h : ∀ t, Speech debug us (Dialogue.deeds policy t xs)) :
    Speech debug (u :: us) (Dialogue.deeds policy t (u.exchanges debug ++ xs)) := by
  cases debug with
  | false => exact .said u (h _)
  | true =>
    cases policy with
    | host => exact .said u (h _)
    | autoResume => exact .said u (.other rfl (h _))

end Utterance

/-- The dialogue of a script that does not stop to tell something is that of the announcing script without
the announcements, and what is done in it are the deeds of the calls announced. -/
theorem Announces.reaches {b b' c : Conduct} {xs : List Exchange} (h : Announces debug b b')
    (hr : b.Reaches xs c) (hc : c.tells = false) :
    ∃ ys c', b'.Reaches ys c' ∧ Announces debug c c' ∧ unannounced ys = xs ∧
      ∀ policy t, Speech debug (ys.filterMap announced?) (Dialogue.deeds policy t xs) := by
  induction h generalizing xs with
  | done failure =>
    cases hr
    exact ⟨[], _, .refl _, .done failure, rfl, fun _ _ => .silent⟩
  | @plain r next next' hplain h ih =>
    cases hr with
    | refl => exact ⟨[], _, .refl _, .plain hplain h, rfl, fun _ _ => .silent⟩
    | @more _ _ reply xs _ hr =>
      obtain ⟨ys, c', hr', hcc, rfl, hs⟩ := ih reply hr
      have hy := announced?_of_isPlain hplain reply
      refine ⟨⟨r, reply⟩ :: ys, c', .more hr', hcc, ?_, fun policy t => ?_⟩
      · simp [unannounced, hy]
      · rw [List.filterMap_cons_none hy]
        exact (hs policy _).prefixed (isSpeech_deeds hplain reply)
  | @said u next next' h ih =>
    obtain ⟨rfl, rfl⟩ | ⟨xs, rfl, hnext⟩ := Utterance.of_reaches_say hr hc
    · exact ⟨[], _, .refl _, .said u h, rfl, fun _ _ => .silent⟩
    · obtain ⟨ys, c', hr', hcc, rfl, hs⟩ := ih hnext
      refine ⟨u.announcement :: (u.exchanges debug ++ ys), c', .more (Utterance.reaches_say hr'), hcc,
        ?_, fun policy t => ?_⟩
      · cases debug <;> rfl
      · rw [u.announced_exchanges]
        exact Utterance.speech_exchanges u (hs policy)

end Script

end Conduit
