import Conduit.Bridge.Basic

/-!
What a host can ask of a bridge. Each call is answered once every run has gone on as far as it can; a
call that has to wait is kept by its ticket and answered together with the call that lets it go on.
-/
namespace Conduit.Bridge

inductive Call where
  /-- Starts a run; with `told` its failure is an answer, otherwise only the log tells of it. -/
  | start (source : String) (told : Bool)
  | submit (line : String)
  | trySubmit (line : String)
  | resume
  | stop
  | waitIdle
  | join (session : Nat)
  | cancel (session : Nat)
  | resumeSession (session : Nat)
  | clear
  | tryRead
  | print (event : OutputEvent)
  | subscribe
  | leave (subscriber : Nat)
  | receive (subscriber : Nat)
deriving DecidableEq, Repr

inductive Reply where
  | started (session : Nat)
  | failed (error : Error)
  /-- The host itself broke down in the call. -/
  | panicked
  | done
  | accepted
  | count (n : Nat)
  | idle
  | report (r : RunReport)
  | line (text : Option String)
  | subscription (id : Nat)
  | events (envelopes : List Envelope)

structure Answer where
  reply : Option Reply
  completed : List (Nat × Reply) := []

def mapSession (b : Bridge) (id : Nat) (f : Session → Session) : Bridge :=
  { b with sessions := b.sessions.map fun s => if s.id = id then f s else s }

/-! Input -/

def deliver (b : Bridge) : Channel.Served → Bridge
  | .read id line =>
    b.mapSession id fun s =>
      match s.phase with
      | .reading _ next => { s with phase := .ready (next (some line)) }
      | _ => s
  | .wrote ticket => { b with admitted := b.admitted ++ [ticket] }

def trySubmit (b : Bridge) (line : String) : Option Bridge :=
  match b.channel.tryWrite line with
  | none => none
  | some (channel, served) => some (served.foldl deliver { b with channel })

def submit (b : Bridge) (ticket : Nat) (line : String) : Bridge × Option Reply :=
  match b.trySubmit line with
  | some b => (b, some .done)
  | none =>
    match b.channel.whenFull with
    | .block => ({ b with channel := b.channel.enqueueWriter ⟨ticket, none, line⟩ }, none)
    | .drop =>
      ((b.note .host .warn .input (Channel.droppedMessage b.channel.limit line)).note
        .host .debug .control "submitted input line was dropped", some .done)

def tryRead (b : Bridge) : Bridge × Option String :=
  match b.channel.take? with
  | none => (b, none)
  | some (line, channel, served) =>
    ({ b with channel, admitted := b.admitted ++ Stage.writerTickets served }, some line)

/-! Cancelling and resuming -/

/-- Calls a run off: its token is cancelled, its gate aborted and a wait for input ended. -/
def cancelled (s : Session) : Session :=
  let s := { s with cancelled := true, gate := s.gate.abort }
  match s.phase with
  | .reading _ next => { s with phase := .ready (next none) }
  | _ => s

def cancelSession (b : Bridge) (id : Nat) : Bridge :=
  match b.find? id with
  | none => b
  | some s =>
    let b := if s.cancelled then b else b.note .host .debug .input Channel.cancelMessage
    let b := match s.phase with
      | .reading true _ => b.note (.worker id) .debug .input Channel.readCancelledMessage
      | _ => b
    { b with channel := b.channel.abandon id }.mapSession id cancelled

def resumeSession (b : Bridge) (id : Nat) : Bridge :=
  b.mapSession id fun s => { s with gate := s.gate.resume }

def publish (b : Bridge) (id : Nat) (e : SessionEvent) : Bridge :=
  { b with hub := b.hub.publish ⟨id, e⟩ }

def resume (b : Bridge) : Bridge × Except Error Nat :=
  match b.active.filter Session.isPaused with
  | [] => (b, .error .notPaused)
  | paused =>
    (paused.foldl (fun b s => (b.resumeSession s.id).publish s.id .resumed) b, .ok paused.length)

def stop (b : Bridge) : Bridge × Except Error Nat :=
  match b.active with
  | [] => (b, .error .noActiveRun)
  | running =>
    (running.foldl (fun b s =>
      (b.note .host .info .control ("Stopping session " ++ Decimal.natText s.id)).cancelSession
        s.id) b, .ok running.length)

/-! Starting -/

def makeWay (b : Bridge) (id : Nat) : Bridge :=
  let earlier := b.active
  match b.config.run.overlap with
  | .interleave =>
    let b := if earlier.isEmpty then b
      else b.note .host .warn .control
        ("session " ++ Decimal.natText id ++ " starts while " ++ Decimal.natText earlier.length ++
          " earlier run(s) are still going; output will interleave")
    b.clearInput .host
  | .supersede =>
    (earlier.foldl (fun b s =>
      (b.note .host .info .control
        ("session " ++ Decimal.natText id ++ " supersedes session " ++
          Decimal.natText s.id)).cancelSession s.id) b).clearInput .host
  | .queue => b

/-- The first phase of a run: behind every earlier run in flight if runs are to queue. -/
def firstPhase (b : Bridge) (source : String) : Phase :=
  match b.config.run.overlap, b.active.map Session.id with
  | .queue, id :: ids => .queued (id :: ids) (b.drive source)
  | _, _ => .ready (b.drive source)

def spawn (b : Bridge) (id : Nat) (phase : Phase) : Bridge :=
  let s : Session := { id, phase }
  let b := { b with sessions := b.sessions ++ [s] }.publish id .spawned
  let b := b.note .host .info .control ("Started session " ++ Decimal.natText id)
  match phase with
  | .queued behind _ =>
    b.note (.worker id) .debug .control
      (Session.mark id ++ "queued behind " ++ Decimal.natText behind.length ++ " earlier run(s)")
  | _ => b

/-- Starts a run. The id is used up and the way made even when the system has no worker for it. A
worker's name cannot hold the character NUL. -/
def start (b : Bridge) (source : String) : Bridge × Reply :=
  let id := b.nextId
  let phase := b.firstPhase source
  let b := { b with nextId := id + 1 }.makeWay id
  if b.config.run.threadName.toList.contains (Char.ofNat 0) then (b, .panicked)
  else if b.grants id then (b.spawn id phase, .started id)
  else (b, .failed .spawn)

/-- The same for a host that wants no answer: only the log tells of a failure. -/
def startUntold (b : Bridge) (source : String) : Bridge × Reply :=
  match b.start source with
  | (b, .failed e) =>
    (b.note .host .error .control ("Failed to start program: " ++ e.message), .done)
  | (b, .panicked) => (b, .panicked)
  | (b, _) => (b, .done)

/-! Waiting -/

def waitReply? (b : Bridge) : Wait → Option Reply
  | .finish id => ((b.find? id).bind Session.report?).map .report
  | .idle ids => if ids.all b.hasFinished then some .idle else none

def await (b : Bridge) (ticket : Nat) (w : Wait) : Bridge × Option Reply :=
  match b.waitReply? w with
  | some r => (b, some r)
  | none => ({ b with waits := b.waits ++ [(ticket, w)] }, none)

def collect (b : Bridge) : Bridge × List (Nat × Reply) :=
  let answered := b.waits.filterMap fun (t, w) => (b.waitReply? w).map fun r => (t, r)
  ({ b with
      waits := b.waits.filter fun (_, w) => (b.waitReply? w).isNone
      admitted := [] },
    b.admitted.map (fun t => (t, .done)) ++ answered)

def ofResult : Except Error Nat → Reply
  | .ok n => .count n
  | .error e => .failed e

def apply (b : Bridge) (ticket : Nat) : Call → Bridge × Option Reply
  | .start source true =>
    let (b, r) := b.start source
    (b, some r)
  | .start source false =>
    let (b, r) := b.startUntold source
    (b, some r)
  | .submit line => b.submit ticket line
  | .trySubmit line =>
    match b.trySubmit line with
    | some b => (b, some .accepted)
    | none => (b, some (.failed (.inputFull b.channel.limit)))
  | .resume =>
    let (b, r) := b.resume
    (b, some (ofResult r))
  | .stop =>
    let (b, r) := b.stop
    (b, some (ofResult r))
  | .waitIdle => b.await ticket (.idle (b.active.map Session.id))
  | .join id => b.await ticket (.finish id)
  | .cancel id =>
    ((b.note .host .info .control ("Cancelling session " ++ Decimal.natText id)).cancelSession id,
      some .done)
  | .resumeSession id => (b.resumeSession id, some .done)
  | .clear =>
    let n := b.channel.size
    (b.clearInput .host, some (.count n))
  | .tryRead =>
    let (b, line) := b.tryRead
    (b, some (.line line))
  | .print e =>
    let (sink, logs) := Output.forward .host b.sink e
    ({ b with sink, journal := b.journal ++ logs }, some .done)
  | .subscribe =>
    let (hub, id) := b.hub.subscribe
    ({ b with hub }, some (.subscription id))
  | .leave id => ({ b with hub := b.hub.leave id }, some .done)
  | .receive id =>
    let (hub, es) := b.hub.receive id
    ({ b with hub }, some (.events es))

def performUntil (halt : Halt) (b : Bridge) (ticket : Nat) (call : Call) : Bridge × Answer :=
  let (b, reply) := b.apply ticket call
  let (b, completed) := (b.settle halt).collect
  (b, { reply, completed })

def perform (b : Bridge) (ticket : Nat) (call : Call) : Bridge × Answer :=
  b.performUntil (fun _ => false) ticket call

def takeJournal (b : Bridge) : Bridge × List Log.Entry := ({ b with journal := [] }, b.journal)

end Conduit.Bridge
