import BrowsAI.Ipc.Channel
import Mathlib.Logic.Function.Basic

/-!
# The process supervisor

The routes of `ProcessTopology` and the channels of `ProcessSupervisor` of `crates/process-model`.
The supervisor keeps one channel for each allowed pair of processes. For every pair its `History`
is a history of that channel, so what holds of every channel holds of every route.
-/

namespace BrowsAI.ProcessModel

open Std Ipc

/-! ## The topology -/

/-- Who may send to whom. -/
structure ProcessTopology where
  protocolVersion : UInt16
  routes : ExtTreeSet (ProcessKind × ProcessKind) compare

namespace ProcessTopology

/-- The routes of the production topology. -/
def productionRoutes : List (ProcessKind × ProcessKind) :=
  [(.host, .browserBroker), (.host, .credentialBroker), (.host, .profileManager),
    (.host, .permissionManager), (.host, .network), (.host, .fileBroker),
    (.host, .downloadBroker), (.host, .audit), (.host, .workspaceManager), (.host, .agentRuntime),
    (.host, .compositor), (.browserBroker, .renderer), (.browserBroker, .network),
    (.browserBroker, .profileManager), (.browserBroker, .permissionManager),
    (.browserBroker, .audit), (.browserBroker, .workspaceManager), (.workspaceManager, .audit),
    (.workspaceManager, .browserBroker), (.agentRuntime, .workspaceManager), (.renderer, .worker),
    (.renderer, .browserBroker), (.agentRuntime, .browserBroker),
    (.agentRuntime, .permissionManager), (.agentRuntime, .fileBroker),
    (.agentRuntime, .downloadBroker), (.compositor, .renderer)]

/-- The routes of the browser. -/
def production (protocolVersion : UInt16) : ProcessTopology :=
  ⟨protocolVersion, .ofList productionRoutes compare⟩

/-- There is a route. -/
def routeAllowed (t : ProcessTopology) (source destination : ProcessKind) : Bool :=
  t.routes.contains (source, destination)

/-- The router with the routes. -/
def router (t : ProcessTopology) : IpcRouter :=
  t.routes.toList.foldl (fun router pair => router.allow pair.1 pair.2)
    (.new t.protocolVersion)

/-- The router allows the routes of the topology. -/
theorem mem_router_allowed {t : ProcessTopology} {pair : ProcessKind × ProcessKind} :
    pair ∈ t.router.allowed ↔ pair ∈ t.routes := by
  have hfold : ∀ (pairs : List (ProcessKind × ProcessKind)) (router : IpcRouter),
      pair ∈ (pairs.foldl (fun router pair => router.allow pair.1 pair.2) router).allowed ↔
        pair ∈ pairs ∨ pair ∈ router.allowed := by
    intro pairs
    induction pairs with
    | nil => simp
    | cons first pairs ih =>
        intro router
        rw [List.foldl_cons, ih, IpcRouter.allow, ExtTreeSet.mem_insert, List.mem_cons]
        rw [Std.compare_eq_iff_eq, eq_comm, or_left_comm, or_assoc]
  rw [router, hfold, ExtTreeSet.mem_toList]
  simp [IpcRouter.new]

end ProcessTopology

/-! ## The supervisor -/

/-- The error of `route`. -/
inductive ProcessSupervisorError where
  | ipc (error : IpcError)
  deriving DecidableEq

/-- A channel for each route that was used. -/
structure ProcessSupervisor where
  topology : ProcessTopology
  channels : OrdMap (ProcessKind × ProcessKind) IpcChannel

namespace ProcessSupervisor

/-- No channel yet. -/
def new (topology : ProcessTopology) : ProcessSupervisor := ⟨topology, ∅⟩

/-- The channel of a pair, or the one that its first message opens. -/
def channel (s : ProcessSupervisor) (pair : ProcessKind × ProcessKind) : IpcChannel :=
  s.channels[pair]?.getD (.bounded 128)

/-- Sends a message along its route, if it is allowed. -/
def route (s : ProcessSupervisor) (message : IpcEnvelope) :
    Except ProcessSupervisorError Unit × ProcessSupervisor :=
  match s.topology.router.validate message with
  | .error error => (.error (.ipc error), s)
  | .ok () =>
      let pair := (message.source, message.destination)
      let (result, channel) := (s.channel pair).send message
      (result.mapError .ipc, { s with channels := s.channels.insert pair channel })

/-- The first message that waits on a route. -/
def receive (s : ProcessSupervisor) (source destination : ProcessKind) :
    Option IpcEnvelope × ProcessSupervisor :=
  match s.channels[(source, destination)]? with
  | none => (none, s)
  | some channel =>
      let (message, channel) := channel.receive
      (message, { s with channels := s.channels.insert (source, destination) channel })

/-- The channel of a pair that got a new one. -/
theorem channel_insert (s : ProcessSupervisor) (pair other : ProcessKind × ProcessKind)
    (channel : IpcChannel) :
    { s with channels := s.channels.insert pair channel : ProcessSupervisor }.channel other =
      if pair = other then channel else s.channel other := by
  rw [ProcessSupervisor.channel, OrdMap.get_insert]
  split_ifs <;> rfl

/-- A refused message changes nothing; an accepted one has an allowed route. -/
theorem route_cases (s : ProcessSupervisor) (message : IpcEnvelope) :
    (∃ error, s.route message = (.error error, s)) ∨
      (message.source, message.destination) ∈ s.topology.routes ∧
      ∃ channel, (s.channel (message.source, message.destination)).send message =
          (.ok (), channel) ∧
        s.route message = (.ok (),
          { s with channels := s.channels.insert (message.source, message.destination) channel }) := by
  rw [route]
  cases hvalid : s.topology.router.validate message with
  | error error => exact .inl ⟨_, rfl⟩
  | ok =>
      have hroute := ProcessTopology.mem_router_allowed.mp (IpcRouter.allowed_of_validate hvalid)
      dsimp only
      generalize hpair : (message.source, message.destination) = pair at hroute ⊢
      rw [IpcChannel.send]
      split_ifs with hfull
      · -- a channel that is full is there already
        have hthere : s.channels[pair]? = some (s.channel pair) := by
          cases hchannel : s.channels[pair]? with
          | some there => rw [channel, hchannel, Option.getD_some]
          | none =>
              rw [channel, hchannel, Option.getD_none] at hfull
              exact absurd hfull (by decide)
        refine .inl ⟨.ipc .backpressure, ?_⟩
        dsimp only
        rw [OrdMap.insert_eq_self hthere]
        rfl
      · exact .inr ⟨hroute, _, rfl, rfl⟩

/-- A call receives from the channel of its pair. -/
theorem receive_eq (s : ProcessSupervisor) (source destination : ProcessKind) :
    (s.receive source destination).1 = (s.channel (source, destination)).receive.1 ∧
      ∀ pair, (s.receive source destination).2.channel pair =
        if (source, destination) = pair then (s.channel pair).receive.2 else s.channel pair := by
  rw [receive]
  cases hchannel : s.channels[(source, destination)]? with
  | none =>
      have hnew : s.channel (source, destination) = .bounded 128 := by
        rw [channel, hchannel, Option.getD_none]
      refine ⟨by rw [hnew]; rfl, fun pair => ?_⟩
      split_ifs with hpair
      · rw [← hpair, hnew]
        rfl
      · rfl
  | some there =>
      have hthere : s.channel (source, destination) = there := by
        rw [channel, hchannel, Option.getD_some]
      refine ⟨by rw [hthere], fun pair => ?_⟩
      rw [channel_insert]
      split_ifs with hpair
      · rw [← hpair, hthere]
      · rfl

/-- Calls keep the topology. -/
theorem topology_receive (s : ProcessSupervisor) (source destination : ProcessKind) :
    (s.receive source destination).2.topology = s.topology := by
  rw [receive]
  cases s.channels[(source, destination)]? <;> rfl

theorem topology_route (s : ProcessSupervisor) (message : IpcEnvelope) :
    (s.route message).2.topology = s.topology := by
  obtain ⟨error, hroute⟩ | ⟨-, channel, -, hroute⟩ := s.route_cases message <;> rw [hroute]

end ProcessSupervisor

/-! ## Histories -/

/-- A call. -/
inductive Op where
  | route (message : IpcEnvelope)
  | receive (source destination : ProcessKind)

/-- The supervisor, and the messages that it accepted and delivered for each pair. -/
structure History where
  supervisor : ProcessSupervisor
  accepted : ProcessKind × ProcessKind → List IpcEnvelope
  received : ProcessKind × ProcessKind → List IpcEnvelope

namespace History

/-- No message yet. -/
def start (topology : ProcessTopology) : History := ⟨.new topology, fun _ => [], fun _ => []⟩

/-- An accepted message has the number that the channel of its pair gave it. -/
def route (h : History) (message : IpcEnvelope) : History :=
  let pair := (message.source, message.destination)
  match h.supervisor.route message with
  | (.ok (), supervisor) =>
      let numbered := { message with sequence := (h.supervisor.channel pair).nextSequence }
      { h with
        supervisor
        accepted := Function.update h.accepted pair (h.accepted pair ++ [numbered]) }
  | (.error _, supervisor) => { h with supervisor }

/-- A message that is received is noted. -/
def receive (h : History) (source destination : ProcessKind) : History :=
  let pair := (source, destination)
  match h.supervisor.receive source destination with
  | (some message, supervisor) =>
      { h with
        supervisor
        received := Function.update h.received pair (h.received pair ++ [message]) }
  | (none, supervisor) => { h with supervisor }

/-- A call, and what it adds to the history. -/
def step (h : History) : Op → History
  | .route message => h.route message
  | .receive source destination => h.receive source destination

/-- Fewer than 2^64 messages were accepted so far for the pair of the message. -/
def InRange (h : History) (message : IpcEnvelope) : Prop :=
  (h.accepted (message.source, message.destination)).length < 2 ^ 64

/-- The runs in which the numbers of every pair stay in range. -/
def machine : Machine History Op where
  step := step
  Allowed h op := ∀ message, op = .route message → h.InRange message

/-- The history of the channel of a pair. -/
def on (h : History) (pair : ProcessKind × ProcessKind) : Ipc.History :=
  ⟨h.supervisor.channel pair, h.accepted pair, h.received pair, []⟩

/-! ## Each pair has a channel -/

variable {h : History} {topology : ProcessTopology}

/-- A routed message is sent on the channel of its pair, and on no other. -/
theorem on_route (h : History) (message : IpcEnvelope) (pair : ProcessKind × ProcessKind) :
    (h.route message).on pair = h.on pair ∨
      pair = (message.source, message.destination) ∧
        pair ∈ h.supervisor.topology.routes ∧
        (h.route message).on pair = (h.on pair).send message := by
  rw [route]
  obtain ⟨error, hroute⟩ | ⟨hallowed, channel, hsend, hroute⟩ := h.supervisor.route_cases message
  · rw [hroute]
    exact .inl rfl
  · rw [hroute]
    by_cases hpair : (message.source, message.destination) = pair
    · subst hpair
      refine .inr ⟨rfl, hallowed, ?_⟩
      rw [Ipc.History.send, on, on, hsend]
      simp [ProcessSupervisor.channel_insert]
    · refine .inl ?_
      rw [on, on]
      simp [ProcessSupervisor.channel_insert, hpair, Ne.symm hpair]

/-- A message is received from the channel of its pair, and from no other. -/
theorem on_receive (h : History) (source destination : ProcessKind)
    (pair : ProcessKind × ProcessKind) :
    (h.receive source destination).on pair =
      if (source, destination) = pair then (h.on pair).receive else h.on pair := by
  obtain ⟨hmessage, hchannel⟩ := h.supervisor.receive_eq source destination
  rw [receive]
  rcases hcall : h.supervisor.receive source destination with ⟨result, supervisor⟩
  rw [hcall] at hmessage hchannel
  by_cases hpair : (source, destination) = pair
  · subst hpair
    rw [if_pos rfl, Ipc.History.receive, on]
    rcases hreceive : (h.supervisor.channel (source, destination)).receive with ⟨message, channel⟩
    have hnext := hchannel (source, destination)
    rw [if_pos rfl, hreceive] at hnext
    rw [hreceive] at hmessage
    dsimp only at hmessage hnext
    subst hmessage
    cases result <;> simp [on, hnext, hreceive]
  · have hnext := hchannel pair
    rw [if_neg hpair] at hnext
    rw [if_neg hpair]
    dsimp only at hnext
    cases result <;> simp [on, hnext, Ne.symm hpair]

/-! ## Runs -/

/-- In every run the history of a pair is a run of its channel. -/
theorem on_reaches (hrun : machine.Reaches (start topology) h) (pair : ProcessKind × ProcessKind) :
    (Ipc.History.machine Ipc.History.InRange).Reaches (.start 128) (h.on pair) := by
  refine hrun.invariant (P := fun h =>
    (Ipc.History.machine Ipc.History.InRange).Reaches (.start 128) (h.on pair)) .refl
      fun h op ih hallowed => ?_
  cases op with
  | route message =>
      obtain hsame | ⟨rfl, -, hsend⟩ := h.on_route message pair
      · exact hsame.symm ▸ ih
      · have hnext := ih.step (.send message) fun sent hsent => by
          cases hsent
          exact hallowed message rfl
        exact hsend.symm ▸ hnext
  | receive source destination =>
      have hreceive := h.on_receive source destination pair
      by_cases hpair : (source, destination) = pair
      · rw [if_pos hpair] at hreceive
        have hnext := ih.step .receive fun sent hsent => by cases hsent
        exact hreceive.symm ▸ hnext
      · rw [if_neg hpair] at hreceive
        exact hreceive.symm ▸ ih

/-- An accepted message was routed in the last call, on an allowed route, or accepted before. -/
theorem accepted_step {op : Op} {pair : ProcessKind × ProcessKind} {message : IpcEnvelope}
    (hmem : message ∈ (h.step op).accepted pair) : message ∈ h.accepted pair ∨
      (message.source, message.destination) = pair ∧ pair ∈ h.supervisor.topology.routes := by
  cases op with
  | route sent =>
      rw [step, route] at hmem
      obtain ⟨error, hroute⟩ | ⟨hallowed, channel, -, hroute⟩ := h.supervisor.route_cases sent
      · rw [hroute] at hmem
        exact .inl hmem
      · rw [hroute] at hmem
        by_cases hpair : pair = (sent.source, sent.destination)
        · subst hpair
          simp only [Function.update_self, List.mem_append, List.mem_singleton] at hmem
          exact hmem.imp_right fun heq => ⟨by rw [heq], hallowed⟩
        · simp only [Function.update_of_ne hpair] at hmem
          exact .inl hmem
  | receive source destination =>
      rw [step, receive] at hmem
      rcases hreceive : h.supervisor.receive source destination with ⟨_ | _, _⟩ <;>
        rw [hreceive] at hmem <;> exact .inl hmem

/-- The routes stay as they are. -/
theorem topology_step (h : History) (op : Op) :
    (h.step op).supervisor.topology = h.supervisor.topology := by
  cases op with
  | route message =>
      have htopology := h.supervisor.topology_route message
      rw [step, route]
      rcases hroute : h.supervisor.route message with ⟨_ | _, _⟩ <;> rw [hroute] at htopology <;>
        exact htopology
  | receive source destination =>
      have htopology := h.supervisor.topology_receive source destination
      rw [step, receive]
      rcases hreceive : h.supervisor.receive source destination with ⟨_ | _, _⟩ <;>
        rw [hreceive] at htopology <;> exact htopology

/-- Every accepted message went where its route is allowed. -/
theorem accepted_allowed (hrun : machine.Reaches (start topology) h) :
    h.supervisor.topology = topology ∧ ∀ pair, ∀ message ∈ h.accepted pair,
      (message.source, message.destination) = pair ∧ pair ∈ topology.routes := by
  refine hrun.invariant (P := fun h => h.supervisor.topology = topology ∧
    ∀ pair, ∀ message ∈ h.accepted pair,
      (message.source, message.destination) = pair ∧ pair ∈ topology.routes)
    ⟨rfl, fun pair message hmem => by cases hmem⟩ fun h op ⟨htopology, ih⟩ _ => ?_
  refine ⟨(h.topology_step op).trans htopology, fun pair message hmem => ?_⟩
  obtain hbefore | hnow := accepted_step hmem
  · exact ih pair message hbefore
  · exact htopology ▸ hnow

/-- A refused message changes nothing. -/
theorem route_error {s : ProcessSupervisor} {message : IpcEnvelope}
    {error : ProcessSupervisorError} (h : (s.route message).1 = .error error) :
    (s.route message).2 = s := by
  obtain ⟨_, hroute⟩ | ⟨_, _, _, hroute⟩ := s.route_cases message
  · rw [hroute]
  · rw [hroute] at h
    cases h

/-- In every run of a channel, and of every channel of a supervisor, that accepts fewer than 2^64
messages between two reconnects: nothing is lost, doubled, or reordered, and a supervisor delivers
messages on allowed routes only. A refused message changes nothing. -/
theorem routed_delivered {capacity : Nat} {c : Ipc.History}
    (hchannel : (Ipc.History.machine Ipc.History.InRange).Reaches (.start capacity) c)
    {topology : ProcessTopology} {h : History} (hrun : machine.Reaches (start topology) h) :
    c.Delivered ∧
      (∀ (channel : IpcChannel) (message : IpcEnvelope) (error : IpcError),
        (channel.send message).1 = .error error → (channel.send message).2 = channel) ∧
      (∀ pair, (h.on pair).Delivered ∧ ∀ message ∈ h.received pair,
        (message.source, message.destination) = pair ∧
          topology.routeAllowed message.source message.destination) ∧
      ∀ (s : ProcessSupervisor) (message : IpcEnvelope) (error : ProcessSupervisorError),
        (s.route message).1 = .error error → (s.route message).2 = s := by
  refine ⟨Ipc.History.reaches_delivered hchannel,
    fun channel message error => IpcChannel.send_error, fun pair => ?_,
    fun s message error => route_error⟩
  have hdelivered := Ipc.History.reaches_delivered (on_reaches hrun pair)
  refine ⟨hdelivered, fun message hmem => ?_⟩
  have haccepted : message ∈ h.accepted pair :=
    hdelivered.ordered.subset (List.mem_append_left _ hmem)
  obtain ⟨hpair, hroute⟩ := (accepted_allowed hrun).2 pair message haccepted
  refine ⟨hpair, ?_⟩
  rw [ProcessTopology.routeAllowed, hpair]
  exact ExtTreeSet.mem_iff_contains.mp hroute

/-! ## A routed message -/

/-- A message of the host to the audit process is routed and received. -/
def pingOps : List Op := [.route Ipc.History.ping, .receive .host .audit]

/-- The example at its end. -/
def pingHistory : History := machine.run (start (.production 1)) pingOps

theorem ping_reached : machine.Reaches (start (.production 1)) pingHistory := by
  have hallowed : machine.AllowedRun (start (.production 1)) pingOps := by
    refine ⟨fun message hmessage => ?_, fun message hmessage => ?_, trivial⟩
    · show ([] : List IpcEnvelope).length < 2 ^ 64
      decide
    · cases hmessage
  exact Machine.Reaches.refl.run hallowed

/-- The channel of the first message, after it was received. -/
def pingChannel : Ipc.History :=
  (Ipc.History.machine Ipc.History.InRange).run (.start 1) [.send Ipc.History.ping, .receive]

theorem ping_channel_reached :
    (Ipc.History.machine Ipc.History.InRange).Reaches (.start 1) pingChannel := by
  have hallowed : (Ipc.History.machine Ipc.History.InRange).AllowedRun (.start 1)
      [.send Ipc.History.ping, .receive] := by
    refine ⟨fun message _ => ?_, fun message hmessage => ?_, trivial⟩
    · show ([] : List IpcEnvelope).length < 2 ^ 64
      decide
    · cases hmessage
  exact Machine.Reaches.refl.run hallowed

theorem ping_routed_delivered :
    pingChannel.Delivered ∧ (pingHistory.on (.host, .audit)).Delivered ∧
      (pingHistory.received (.host, .audit)).map IpcEnvelope.requestId = [1] := by
  obtain ⟨hchannel, -, hpairs, -⟩ := routed_delivered ping_channel_reached ping_reached
  exact ⟨hchannel, (hpairs (.host, .audit)).1, by decide⟩

end History

end BrowsAI.ProcessModel
