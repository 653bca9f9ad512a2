import ShellHost.Session.Basic

/-!
# The steps of a session

Whatever the user of a session can do is a `Step`, and what it comes to is a `Report`. `Session.step` does one and
`Session.run` does one after another; after each the session is settled. A step that names something which is not there
reports that it is missing and changes nothing.
-/

namespace ShellHost

open Json

variable {σ : Type}

/-- A question under a name, and the bridge that it goes over. -/
structure Inquiry where
  /-- The name. -/
  name : String
  /-- The bridge. -/
  bridge : String
  /-- The question. -/
  question : Question

/-- What the user of a session can do. -/
inductive Step (σ : Type) where
  /-- Changes what the host works on. -/
  | touch (f : σ → σ)
  /-- Runs the handler of an action by its name. -/
  | dispatch (action : String) (request : Value)
  /-- Runs the handler that a message asks for. -/
  | dispatchMessage (payload : Value)
  /-- Runs the handler of an action. -/
  | dispatchTyped (a : Action)
  /-- Lets the host answer an envelope. -/
  | route (e : Envelope)
  /-- Lets the host answer a text. -/
  | handleText (text : String)
  /-- Lets the host publish events. -/
  | emit (es : List Event)
  /-- Gives the endpoint to the host, which begins to serve. -/
  | serve
  /-- Asks whether the host serves. -/
  | isServing
  /-- Stops the serving host, and drops the endpoint. -/
  | stopServing
  /-- Lets go of the host. -/
  | dropHost
  /-- Takes an envelope by hand and keeps it under a name. -/
  | take (name : String)
  /-- Sends a text back to the caller of an envelope. -/
  | respond (name text : String)
  /-- Sends the host's reply back to the caller of an envelope. -/
  | reply (name : String)
  /-- Drops an envelope without a reply. -/
  | discard (name : String)
  /-- Drops the endpoint, if it is held. -/
  | dropEndpoint
  /-- Makes another bridge. -/
  | clone (bridge name : String)
  /-- Drops a bridge. -/
  | dropBridge (bridge : String)
  /-- Asks questions, one after another. -/
  | ask (qs : List Inquiry)
  /-- Fetches the answer of a call, once. -/
  | fetch (name : String)
  /-- Gives up a call. -/
  | cancel (name : String)
  /-- Begins to listen to a channel. -/
  | listen (bridge name channel : String)
  /-- Asks for the next event of the channel. -/
  | next (name : String)
  /-- Begins to listen to all channels. -/
  | subscribe (name : String)
  /-- Asks for the next event. -/
  | receive (name : String)
  /-- Ends listening. -/
  | unsubscribe (name : String)
  /-- Publishes events. -/
  | publish (es : List Event)
  /-- Lets go of the bus. -/
  | dropBus

/-- What a step comes to. -/
inductive Report where
  /-- What it names is not there. -/
  | missing
  /-- It is done. -/
  | done
  /-- The result of a handler. -/
  | result (r : Except CallError Value)
  /-- The outcome of a message. -/
  | outcome (o : Outcome)
  /-- The text of a reply. -/
  | reply (text : String)
  /-- How many got each event. -/
  | delivered (ns : List Nat)
  /-- Whether the host serves. -/
  | serving (b : Bool)
  /-- The text of an envelope. -/
  | envelope (text : String)
  /-- Nothing has come yet. -/
  | pending
  /-- Nobody is left who could send. -/
  | noBridges
  /-- Nobody holds the endpoint. -/
  | noEndpoint
  /-- Whether the caller was still there. -/
  | responded (b : Bool)
  /-- Whether the caller was still there, and the reply. -/
  | replied (b : Bool) (text : String)
  /-- The answer of a call. -/
  | answer (a : Answer)
  /-- The payload of an event. -/
  | payload (v : Value)
  /-- An event, a lag or nothing. -/
  | received (r : Received)
  /-- The bus is closed and everything is read. -/
  | closed
  /-- Whether there was somebody who listened. -/
  | unsubscribed (b : Bool)

namespace Session

/-- Asks one question, if its bridge is there. -/
def inquire (s : Session σ) (q : Inquiry) : Session σ :=
  if s.bridges.contains q.bridge then s.ask q.name q.question else s

/-- One step, before anything else moves. -/
def act (s : Session σ) : Step σ → Report × Session σ
  | .touch f => (.done, { s with state := f s.state })
  | .dispatch action request =>
    if s.hostHeld then
      let (o, state) := s.host.handlers.dispatch action request s.state
      (.result o.toExcept, { s with state := state })
    else (.missing, s)
  | .dispatchMessage payload =>
    if s.hostHeld then
      let (o, state) := s.host.handlers.dispatchMessage payload s.state
      (.outcome o, { s with state := state })
    else (.missing, s)
  | .dispatchTyped a =>
    if s.hostHeld then
      let (r, state) := s.host.handlers.dispatchTyped a s.state
      (.result (r.map a.responseValue), { s with state := state })
    else (.missing, s)
  | .route e =>
    if s.hostHeld then
      let (r, state) := s.host.route e s.state
      (.reply r.render, { s with state := state })
    else (.missing, s)
  | .handleText text =>
    if s.hostHeld then
      let (r, state) := s.host.handleText text s.state
      (.reply r, { s with state := state })
    else (.missing, s)
  | .emit es =>
    if s.hostHeld then
      let (ns, s) := s.publish es
      (.delivered ns, s)
    else (.missing, s)
  | .serve =>
    if s.hostHeld ∧ s.endpoint = .held then
      let s := { s with endpoint := .serving }.settle
      (.serving (s.endpoint = .serving), s)
    else (.missing, s)
  | .isServing => (.serving (s.endpoint = .serving), s)
  | .stopServing =>
    (.done, if s.endpoint = .serving then { s with toExchange := s.dropEndpoint } else s)
  | .dropHost => (.done, { s with hostHeld := false })
  | .take name =>
    if s.endpoint = .held then
      match s.receive with
      | some (f, x) => (.envelope f.text, { s with toExchange := x.keep name f })
      | none => (if s.senders = 0 then .noBridges else .pending, s)
    else (.noEndpoint, s)
  | .respond name text =>
    match s.taken.lookup name with
    | none => (.missing, s)
    | some f =>
      let (b, x) := s.giveBack name f (.replied text)
      (.responded b, { s with toExchange := x })
  | .reply name =>
    match s.taken.lookup name with
    | none => (.missing, s)
    | some f =>
      if s.hostHeld then
        let (text, state) := s.host.handleText f.text s.state
        let (b, x) := s.giveBack name f (.replied text)
        (.replied b text, { s with toExchange := x, state := state })
      else (.missing, s)
  | .discard name =>
    match s.taken.lookup name with
    | none => (.missing, s)
    | some f => (.done, { s with toExchange := (s.giveBack name f .dropped).2 })
  | .dropEndpoint => (.done, if s.endpoint = .held then { s with toExchange := s.dropEndpoint } else s)
  | .clone bridge name =>
    if s.bridges.contains bridge then (.done, { s with bridges := name :: s.bridges.erase name })
    else (.missing, s)
  | .dropBridge bridge =>
    if s.bridges.contains bridge then (.done, { s with bridges := s.bridges.erase bridge }) else (.missing, s)
  | .ask qs =>
    match qs with
    | [q] => if s.bridges.contains q.bridge then (.done, s.inquire q) else (.missing, s)
    | qs => (.done, qs.foldl inquire s)
  | .fetch name =>
    match s.handles.lookup name with
    | none => (.missing, s)
    | some (.unsent a) => (.answer a, { s with handles := unassign name s.handles })
    | some (.call n) =>
      match (s.call? n).bind Call.answer? with
      | some a => (.answer a, { s with handles := unassign name s.handles })
      | none => (.pending, s)
  | .cancel name =>
    match s.handles.lookup name with
    | none => (.missing, s)
    | some (.unsent _) => (.done, { s with handles := unassign name s.handles })
    | some (.call n) => (.done, { s with toExchange := s.abandon n, handles := unassign name s.handles })
  | .listen bridge name channel =>
    if s.bridges.contains bridge then
      (.done, { s with subscriptions := assign name ⟨channel, s.bus.subscribe⟩ s.subscriptions })
    else (.missing, s)
  | .next name =>
    match s.subscriptions.lookup name with
    | none => (.missing, s)
    | some sub =>
      let (r, l) := s.bus.poll sub.channel sub.listener
      let s' := { s with subscriptions := assign name { sub with listener := l } s.subscriptions }
      match r with
      | some v => (.payload v, s')
      | none => (if s.busOpen then .pending else .closed, s')
  | .subscribe name =>
    if s.busHeld then (.done, { s with listeners := assign name s.bus.subscribe s.listeners })
    else (.missing, s)
  | .receive name =>
    match s.listeners.lookup name with
    | none => (.missing, s)
    | some l =>
      let (r, l) := s.bus.receive l
      let s' := { s with listeners := assign name l s.listeners }
      match r with
      | .empty => (if s.busOpen then .received .empty else .closed, s')
      | r => (.received r, s')
  | .unsubscribe name =>
    (.unsubscribed ((s.subscriptions.lookup name).isSome || (s.listeners.lookup name).isSome),
      { s with subscriptions := unassign name s.subscriptions, listeners := unassign name s.listeners })
  | .publish es =>
    if s.busHeld then
      let (ns, s) := s.publish es
      (.delivered ns, s)
    else (.missing, s)
  | .dropBus => (.done, { s with busHeld := false })

/-- One step, and all that moves after it. -/
def step (s : Session σ) (p : Step σ) : Report × Session σ :=
  let (r, s) := s.act p
  (r, s.settle)

/-- One step after another. -/
def run (s : Session σ) : List (Step σ) → List Report × Session σ
  | [] => ([], s)
  | p :: ps =>
    let (r, s) := s.step p
    let (rs, s) := run s ps
    (r :: rs, s)

/-- The calls whose answer was not fetched, and whether each is still in flight. -/
def openCalls (s : Session σ) : List (String × Bool) :=
  s.handles.map fun (name, h) =>
    (name, match h with
      | .call n => s.flying n
      | .unsent _ => false)

end Session

end ShellHost
