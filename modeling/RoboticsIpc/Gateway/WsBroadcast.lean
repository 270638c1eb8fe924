import Mathlib.Logic.Function.Basic
import RoboticsIpc.Gateway.Handshake
import RoboticsIpc.Gateway.WsServer

/-!
The gateway's WebSocket server with all its clients.

The server goes through its set of clients for a broadcast and when it closes; a client leaves the
set when its connection ends. Each connection goes its own way: it is what a lone client is after
the events that are for it, and it is in the set exactly as long as it is registered
(`clients_isolated`).
-/

namespace RoboticsIpc.WebSocketServer

open ByteBuffer StreamReader

/-! ### What a connection keeps -/

/-- What was written stays, and a client that has left the set does not come back. -/
structure Later (c c' : Connection) : Prop where
  written : c.written <+: c'.written
  registered : c'.registered = true → c.registered = true

section Later

variable {results : WriteResults}

theorem Later.refl (c : Connection) : Later c c := ⟨List.prefix_refl _, id⟩

theorem Later.trans {c c' c'' : Connection} (first : Later c c') (second : Later c' c'') :
    Later c c'' :=
  ⟨first.written.trans second.written, fun there => first.registered (second.registered there)⟩

theorem later_shutdown (c : Connection) : Later c c.shutdown := by
  rw [Connection.shutdown]
  split
  · exact .refl c
  · exact ⟨List.prefix_refl _, fun there => absurd there Bool.noConfusion⟩

theorem later_safeWrite (c : Connection) (o : Outgoing) : Later c (c.safeWrite results o).1 := by
  have sent : Later c { c with written := c.written ++ [o] } := ⟨List.prefix_append _ _, id⟩
  rw [Connection.safeWrite]
  split
  · exact .refl c
  · dsimp only
    split
    · exact sent
    · exact sent.trans (later_shutdown _)

theorem later_sendCloseAndShutdown (c : Connection) (code : UInt16) (reason : JsString) :
    Later c (c.sendCloseAndShutdown results code reason) := by
  rw [Connection.sendCloseAndShutdown]
  split
  · exact .refl c
  · exact (later_safeWrite c _).trans (later_shutdown _)

theorem later_onParsed (c : Connection) (p : Parsed) : Later c (c.onParsed results p) := by
  cases p with
  | protocolError reason => exact later_sendCloseAndShutdown c 1002 reason
  | frame f =>
      rw [Connection.onParsed]
      split
      · exact later_sendCloseAndShutdown c _ _
      · split
        · exact later_sendCloseAndShutdown c _ _
        · split
          · exact later_safeWrite c _
          · exact .refl c

theorem later_handleAll (c : Connection) (ps : List Parsed) :
    Later c (handleAll (handler results) c ps) := by
  induction ps generalizing c with
  | nil => exact .refl c
  | cons p ps ih =>
      cases stopped : (handler results).stopped c with
      | true =>
          rw [handleAll_stopped stopped]
          exact .refl c
      | false =>
          rw [handleAll_cons stopped]
          exact (later_onParsed c p).trans (ih _)

/-- A closed client takes no data. -/
theorem onData_closed {client : WsClient} (closed : client.state.closed = true) (chunk : Bytes) :
    client.onData results chunk = client := by
  have stopped : (handler results).stopped client.state = true := closed
  rw [WsClient.onData, feed, if_pos stopped]

theorem later_step (client : WsClient) (e : Event) :
    Later client.state (client.step results e).state := by
  cases e with
  | data chunk =>
      cases reads : client.state.closed with
      | true =>
          rw [WsClient.step, onData_closed reads]
          exact .refl _
      | false =>
          rw [WsClient.step, WsClient.state_onData reads]
          exact later_handleAll _ _
  | error => exact later_shutdown _
  | socketClose =>
      rw [WsClient.step, Connection.onSocketClose]
      split
      · exact .refl _
      · exact ⟨List.prefix_refl _, fun there => absurd there Bool.noConfusion⟩
  | destroy => exact ⟨List.prefix_refl _, id⟩
  | broadcast t =>
      rw [WsClient.step, WsClient.broadcast]
      split
      · exact later_safeWrite _ _
      · exact .refl _
  | serverClose =>
      rw [WsClient.step, WsClient.serverClose]
      split
      · exact ⟨(later_sendCloseAndShutdown _ _ _).written, fun there => absurd there Bool.noConfusion⟩
      · exact .refl _

end Later

/-! ### The server -/

/-- The clients are numbered in the order they came. -/
structure Server where
  conn : Nat → WsClient := fun _ => .new
  made : Nat := 0
  /-- The set of clients, in the order of insertion. -/
  clients : List Nat := []
  closed : Bool := false

/-- What a socket reports. -/
inductive SocketEvent where
  | data (chunk : Bytes)
  | error
  | close
  | destroy

def SocketEvent.event : SocketEvent → Event
  | .data chunk => .data chunk
  | .error => .error
  | .close => .socketClose
  | .destroy => .destroy

inductive ServerEvent where
  | upgrade (headers : UpgradeHeaders) (head : Bytes)
  | socket (i : Nat) (e : SocketEvent)
  | broadcast (t : JsString)
  | close

namespace Server

/-- `client` is now client `i`; the set loses it when it unregisters. -/
def put (s : Server) (i : Nat) (client : WsClient) : Server :=
  { s with
    conn := Function.update s.conn i client
    clients := if client.state.registered then s.clients else s.clients.erase i }

/-- Put what `act` makes of each of these clients. -/
def forClients (act : Nat → WsClient → WsClient) (ids : List Nat) (s : Server) : Server :=
  ids.foldl (fun s i => s.put i (act i (s.conn i))) s

section Step

variable (results : Nat → WriteResults)

/-- `client.sendText(text)`. -/
def sendTo (t : JsString) (i : Nat) (client : WsClient) : WsClient :=
  ⟨(client.state.sendText (results i) t).1, client.buf⟩

/-- `broadcast`, and the number it returns. -/
def broadcast (s : Server) (t : JsString) : Server × Nat :=
  s.clients.foldl
    (fun (s, sent) i =>
      (s.put i (sendTo results t i (s.conn i)),
        if ((s.conn i).state.sendText (results i) t).2 then sent + 1 else sent))
    (s, 0)

/-- `this.clients.clear()`. -/
def clear (s : Server) : Server :=
  { s with
    conn := fun i =>
      if i ∈ s.clients then ⟨{ (s.conn i).state with registered := false }, (s.conn i).buf⟩
      else s.conn i
    clients := [] }

/-- `client._sendCloseAndShutdown(1001, 'gateway shutting down')`. -/
def shutDown (i : Nat) (client : WsClient) : WsClient :=
  ⟨client.state.sendCloseAndShutdown (results i) 1001 (jsString "gateway shutting down"), client.buf⟩

/-- `close`, but for the HTTP server. -/
def close (s : Server) : Server :=
  if s.closed then s
  else (forClients (shutDown results) s.clients { s with closed := true }).clear

def onSocket (s : Server) (i : Nat) (e : SocketEvent) : Server :=
  s.put i ((s.conn i).step (results i) e.event)

/-- `_handleUpgrade`: a refused socket is nobody's. -/
def upgrade (sha1 : Bytes → Bytes) (s : Server) (headers : UpgradeHeaders) (head : Bytes) : Server :=
  match handleUpgrade sha1 headers with
  | .refused _ => s
  | .switched _ =>
      let i := s.made
      let s := { s with made := i + 1, clients := s.clients ++ [i] }
      if head = [] then s else s.onSocket results i (.data head)

def step (sha1 : Bytes → Bytes) (s : Server) : ServerEvent → Server
  | .upgrade headers head => s.upgrade results sha1 headers head
  | .socket i e => if i < s.made then s.onSocket results i e else s
  | .broadcast t => (s.broadcast results t).1
  | .close => s.close results

def run (sha1 : Bytes → Bytes) (events : List ServerEvent) : Server :=
  events.foldl (step results sha1) {}

end Step

/-! ### Loops over the set -/

variable {results : Nat → WriteResults} {act : Nat → WsClient → WsClient} {s : Server} {i j : Nat}

/-- What a loop over different clients of the set does to each. -/
theorem forClients_spec (act : Nat → WsClient → WsClient) {ids : List Nat} (ownIds : ids.Nodup)
    (s : Server) (unique : s.clients.Nodup) :
    (∀ j, (forClients act ids s).conn j = if j ∈ ids then act j (s.conn j) else s.conn j) ∧
    (∀ j, j ∈ (forClients act ids s).clients ↔
      j ∈ s.clients ∧ (j ∈ ids → (act j (s.conn j)).state.registered = true)) ∧
    (forClients act ids s).clients.Nodup ∧ (forClients act ids s).made = s.made ∧
    (forClients act ids s).closed = s.closed := by
  induction ids generalizing s with
  | nil => simp [forClients, unique]
  | cons i ids ih =>
      obtain ⟨fresh, ownIds⟩ := List.nodup_cons.mp ownIds
      have unique' : (s.put i (act i (s.conn i))).clients.Nodup := by
        rw [put]
        dsimp only
        split
        · exact unique
        · exact unique.erase i
      obtain ⟨conn, clients, nodup, made, closed⟩ := ih ownIds _ unique'
      have first : forClients act (i :: ids) s = forClients act ids (s.put i (act i (s.conn i))) := rfl
      rw [first]
      refine ⟨fun j => ?_, fun j => ?_, nodup, made, closed⟩
      · rw [conn j]
        by_cases same : j = i
        · subst same
          simp [fresh, put]
        · simp [same, put]
      · rw [clients j]
        by_cases same : j = i
        · subst same
          by_cases stays : (act j (s.conn j)).state.registered = true
          · simp [fresh, put, stays]
          · simp [put, stays, unique.mem_erase_iff]
        · by_cases stays : (act i (s.conn i)).state.registered = true
          · simp [same, put, stays]
          · simp [same, put, stays, unique.mem_erase_iff]

/-- `broadcast` and what it returns. -/
theorem broadcast_eq (s : Server) (unique : s.clients.Nodup) (t : JsString) :
    s.broadcast results t = (forClients (sendTo results t) s.clients s,
      s.clients.countP fun i => ((s.conn i).state.sendText (results i) t).2) := by
  have fold : ∀ (ids : List Nat) (s' : Server) (n : Nat), ids.Nodup →
      (∀ i ∈ ids, s'.conn i = s.conn i) →
      ids.foldl (fun (s, sent) i => (s.put i (sendTo results t i (s.conn i)),
          if ((s.conn i).state.sendText (results i) t).2 then sent + 1 else sent)) (s', n) =
        (forClients (sendTo results t) ids s',
          n + ids.countP fun i => ((s.conn i).state.sendText (results i) t).2) := by
    intro ids
    induction ids with
    | nil => exact fun _ _ _ _ => rfl
    | cons i ids ih =>
        intro s' n ownIds same
        obtain ⟨fresh, ownIds⟩ := List.nodup_cons.mp ownIds
        have later : ∀ j ∈ ids, (s'.put i (sendTo results t i (s'.conn i))).conn j = s.conn j := by
          intro j mem
          have other : j ≠ i := fun equal => fresh (equal ▸ mem)
          rw [← same j (List.mem_cons_of_mem i mem)]
          exact Function.update_of_ne other _ _
        rw [List.foldl_cons, ih _ _ ownIds later, same i List.mem_cons_self, List.countP_cons]
        congr 1
        · rw [forClients, forClients, List.foldl_cons, same i List.mem_cons_self]
        · split <;> omega
  have all := fold s.clients s 0 unique fun _ _ => rfl
  rw [Nat.zero_add] at all
  exact all

/-! ### The events of each client -/

/-- Whether a socket becomes a client. -/
def admits (sha1 : Bytes → Bytes) : ServerEvent → Bool
  | .upgrade headers _ =>
      match handleUpgrade sha1 headers with
      | .refused _ => false
      | .switched _ => true
  | _ => false

/-- The clients that have come. -/
def admitted (sha1 : Bytes → Bytes) (events : List ServerEvent) : Nat :=
  events.countP (admits sha1)

def ends : ServerEvent → Bool
  | .close => true
  | _ => false

/-- What an event is to client `i` after `earlier`. A broadcast and the end of the server are for
all that have come; the server ends once. -/
def concerns (sha1 : Bytes → Bytes) (i : Nat) (earlier : List ServerEvent) (e : ServerEvent) :
    List Event :=
  match e with
  | .upgrade headers head =>
      if admits sha1 (.upgrade headers head) = true ∧ i = admitted sha1 earlier ∧ head ≠ [] then
        [.data head]
      else []
  | .socket j e => if i = j ∧ i < admitted sha1 earlier then [e.event] else []
  | .broadcast t => if i < admitted sha1 earlier then [.broadcast t] else []
  | .close => if i < admitted sha1 earlier ∧ earlier.any ends = false then [.serverClose] else []

/-- The events of client `i` in `later`, which comes after `earlier`. -/
def eventsFrom (sha1 : Bytes → Bytes) (i : Nat) (earlier : List ServerEvent) :
    List ServerEvent → List Event
  | [] => []
  | e :: later => concerns sha1 i earlier e ++ eventsFrom sha1 i (earlier ++ [e]) later

def eventsOf (sha1 : Bytes → Bytes) (events : List ServerEvent) (i : Nat) : List Event :=
  eventsFrom sha1 i [] events

theorem eventsFrom_concat (sha1 : Bytes → Bytes) (i : Nat) (earlier events : List ServerEvent)
    (e : ServerEvent) : eventsFrom sha1 i earlier (events ++ [e]) =
      eventsFrom sha1 i earlier events ++ concerns sha1 i (earlier ++ events) e := by
  induction events generalizing earlier with
  | nil => simp [eventsFrom]
  | cons first events ih =>
      rw [List.cons_append, eventsFrom, eventsFrom, ih, List.append_assoc, List.append_assoc]
      rfl

theorem eventsOf_concat (sha1 : Bytes → Bytes) (events : List ServerEvent) (e : ServerEvent) :
    eventsOf sha1 (events ++ [e]) =
      fun i => eventsOf sha1 events i ++ concerns sha1 i events e :=
  funext fun i => eventsFrom_concat sha1 i [] events e

/-! ### Each connection by itself -/

/-- Each connection is that of a lone client with these events, and the set has those that are
registered. -/
structure Isolated (results : Nat → WriteResults) (s : Server) (events : Nat → List Event) :
    Prop where
  conn : ∀ i < s.made, s.conn i = WsClient.run (results i) (events i)
  later : ∀ i, s.made ≤ i → s.conn i = .new ∧ events i = []
  members : ∀ i, i ∈ s.clients ↔ i < s.made ∧ (s.conn i).state.registered = true
  unique : s.clients.Nodup

variable {events : Nat → List Event}

theorem run_concat (results : WriteResults) (events : List Event) (e : Event) :
    WsClient.run results (events ++ [e]) = (WsClient.run results events).step results e :=
  List.foldl_concat _ _ _ _

/-- A socket reports something. -/
theorem Isolated.onSocket (inv : Isolated results s events) (made : i < s.made) (e : SocketEvent) :
    Isolated results (s.onSocket results i e)
      (fun j => events j ++ if j = i then [e.event] else []) := by
  have stays : ((s.conn i).step (results i) e.event).state.registered = true →
      (s.conn i).state.registered = true := (later_step _ e.event).registered
  refine ⟨fun j below => ?_, fun j above => ?_, fun j => ?_, ?_⟩
  · by_cases same : j = i
    · subst same
      simp only [Server.onSocket, put, Function.update_self, if_pos]
      rw [run_concat, ← inv.conn j made]
    · simp only [Server.onSocket, put, Function.update_of_ne same, if_neg same, List.append_nil]
      exact inv.conn j below
  · have other : j ≠ i := Nat.ne_of_gt (Nat.lt_of_lt_of_le made above)
    simp only [Server.onSocket, put, Function.update_of_ne other, if_neg other, List.append_nil]
    exact inv.later j above
  · simp only [Server.onSocket, put]
    by_cases same : j = i
    · subst same
      cases left : ((s.conn j).step (results j) e.event).state.registered with
      | true => simp [left, inv.members, made, stays left]
      | false => simp [left, inv.unique.mem_erase_iff]
    · rw [Function.update_of_ne same, ← inv.members j]
      split
      · exact Iff.rfl
      · exact List.mem_erase_of_ne same
  · simp only [Server.onSocket, put]
    split
    · exact inv.unique
    · exact inv.unique.erase i

/-- An event that is for all clients. -/
theorem Isolated.all (inv : Isolated results s events) {e : Event} {s' : Server}
    (made : s'.made = s.made)
    (acts : ∀ i < s.made, s'.conn i = (s.conn i).step (results i) e)
    (spares : ∀ i, s.made ≤ i → s'.conn i = s.conn i)
    (members : ∀ i, i ∈ s'.clients ↔ i ∈ s.clients ∧ (s'.conn i).state.registered = true)
    (stays : ∀ i < s.made, (s'.conn i).state.registered = true → (s.conn i).state.registered = true)
    (unique : s'.clients.Nodup) :
    Isolated results s' (fun i => events i ++ if i < s.made then [e] else []) := by
  refine ⟨fun i below => ?_, fun i above => ?_, fun i => ?_, unique⟩
  · rw [made] at below
    simp only [if_pos below]
    rw [acts i below, run_concat, ← inv.conn i below]
  · rw [made] at above
    simp only [if_neg above.not_gt, List.append_nil]
    rw [spares i above]
    exact inv.later i above
  · rw [members i, made, inv.members i]
    constructor
    · rintro ⟨⟨below, -⟩, there⟩
      exact ⟨below, there⟩
    · rintro ⟨below, there⟩
      exact ⟨⟨below, stays i below there⟩, there⟩

theorem Isolated.not_mem (inv : Isolated results s events) (above : s.made ≤ i) : i ∉ s.clients :=
  fun mem => absurd ((inv.members i).mp mem).1 above.not_gt

theorem Isolated.broadcast (inv : Isolated results s events) (t : JsString) :
    Isolated results (s.broadcast results t).1
      (fun i => events i ++ if i < s.made then [.broadcast t] else []) := by
  obtain ⟨conn, clients, unique, made, -⟩ :=
    forClients_spec (sendTo results t) inv.unique s inv.unique
  rw [broadcast_eq s inv.unique]
  apply inv.all made
  · intro i below
    refine (conn i).trans ?_
    rw [WsClient.step, WsClient.broadcast]
    by_cases there : (s.conn i).state.registered = true
    · rw [if_pos ((inv.members i).mpr ⟨below, there⟩), if_pos there]
      rfl
    · rw [if_neg fun mem => there ((inv.members i).mp mem).2, if_neg there]
  · intro i above
    exact (conn i).trans (if_neg (inv.not_mem above))
  · intro i
    refine (clients i).trans (and_congr_right fun mem => ?_)
    have now : (forClients (sendTo results t) s.clients s).conn i =
        sendTo results t i (s.conn i) := (conn i).trans (if_pos mem)
    rw [now]
    exact ⟨fun there => there mem, fun there _ => there⟩
  · intro i below there
    by_cases mem : i ∈ s.clients
    · exact ((inv.members i).mp mem).2
    · have same : (forClients (sendTo results t) s.clients s).conn i = s.conn i :=
        (conn i).trans (if_neg mem)
      rwa [same] at there
  · exact unique

/-- Closing a client and clearing the set is closing the client and taking it out. -/
theorem conn_close (inv : Isolated results s events) (opened : s.closed = false) (i : Nat) :
    (s.close results).conn i =
      if i ∈ s.clients then (s.conn i).serverClose (results i) else s.conn i := by
  obtain ⟨conn, clients, -⟩ := forClients_spec (shutDown results) inv.unique
    { s with closed := true } inv.unique
  rw [close, if_neg (by rw [opened]; exact Bool.false_ne_true), clear]
  dsimp only
  rw [conn i]
  by_cases mem : i ∈ s.clients
  · rw [if_pos mem, if_pos mem, WsClient.serverClose, if_pos ((inv.members i).mp mem).2]
    split
    · rfl
    · rename_i gone
      have left : (shutDown results i (s.conn i)).state.registered = false := by
        rw [Bool.eq_false_iff]
        exact fun there => gone ((clients i).mpr ⟨mem, fun _ => there⟩)
      generalize server : shutDown results i (s.conn i) = client at left
      have state : (s.conn i).state.sendCloseAndShutdown (results i) 1001
          (jsString "gateway shutting down") = client.state := congrArg (·.state) server
      have buf : (s.conn i).buf = client.buf := congrArg (·.buf) server
      rw [state, buf]
      obtain ⟨⟨closed, registered, destroyed, ended, written⟩, rest⟩ := client
      dsimp only at left
      rw [left]
  · have out : i ∉ (forClients (shutDown results) s.clients { s with closed := true }).clients :=
      fun there => mem ((clients i).mp there).1
    rw [if_neg mem, if_neg mem, if_neg out]

/-- Closing keeps the number of clients. -/
theorem close_spec (inv : Isolated results s events) :
    (s.close results).made = s.made ∧ (s.close results).closed = true := by
  obtain ⟨-, -, -, made, closed⟩ := forClients_spec (shutDown results) inv.unique
    { s with closed := true } inv.unique
  rw [Server.close]
  split
  · rename_i already
    exact ⟨rfl, already⟩
  · exact ⟨made, closed⟩

theorem Isolated.close (inv : Isolated results s events) (opened : s.closed = false) :
    Isolated results (s.close results)
      (fun i => events i ++ if i < s.made then [.serverClose] else []) := by
  have conn := conn_close inv opened
  have closes : s.close results =
      (forClients (shutDown results) s.clients { s with closed := true }).clear := by
    rw [Server.close, if_neg (by rw [opened]; exact Bool.false_ne_true)]
  have empty : (s.close results).clients = [] := by
    rw [closes]
    rfl
  have out : ∀ i ∈ s.clients, ((s.close results).conn i).state.registered = false := by
    intro i mem
    rw [conn i, if_pos mem, WsClient.serverClose, if_pos ((inv.members i).mp mem).2]
  apply inv.all (close_spec inv).1
  · intro i below
    refine (conn i).trans ?_
    rw [WsClient.step]
    split
    · rfl
    · rename_i notMem
      have gone : ¬ (s.conn i).state.registered = true :=
        fun there => notMem ((inv.members i).mpr ⟨below, there⟩)
      rw [WsClient.serverClose, if_neg gone]
  · intro i above
    exact (conn i).trans (if_neg (inv.not_mem above))
  · intro i
    have none : i ∉ (s.close results).clients := by
      rw [empty]
      exact List.not_mem_nil
    refine iff_of_false none ?_
    rintro ⟨mem, there⟩
    exact absurd ((out i mem).symm.trans there) Bool.noConfusion
  · intro i below there
    by_cases mem : i ∈ s.clients
    · exact ((inv.members i).mp mem).2
    · have same : (s.close results).conn i = s.conn i := (conn i).trans (if_neg mem)
      rwa [same] at there
  · rw [empty]
    exact List.nodup_nil

/-- A new client is in the set. -/
theorem Isolated.add (inv : Isolated results s events) :
    Isolated results { s with made := s.made + 1, clients := s.clients ++ [s.made] } events := by
  obtain ⟨fresh, nothing⟩ := inv.later s.made (Nat.le_refl _)
  refine ⟨fun i below => ?_, fun i above => inv.later i (Nat.le_of_succ_le above), fun i => ?_, ?_⟩
  · rcases Nat.lt_succ_iff_lt_or_eq.mp below with old | rfl
    · exact inv.conn i old
    · dsimp only
      rw [fresh, nothing]
      rfl
  · dsimp only
    rw [List.mem_append, List.mem_singleton, inv.members i, Nat.lt_succ_iff_lt_or_eq]
    constructor
    · rintro (⟨old, there⟩ | rfl)
      · exact ⟨.inl old, there⟩
      · exact ⟨.inr rfl, by rw [fresh]; rfl⟩
    · rintro ⟨old | rfl, there⟩
      · exact .inl ⟨old, there⟩
      · exact .inr rfl
  · dsimp only
    rw [List.nodup_append]
    refine ⟨inv.unique, List.pairwise_singleton _ _, ?_⟩
    intro i mem j last same
    rw [same, List.mem_singleton.mp last] at mem
    exact inv.not_mem (Nat.le_refl _) mem

theorem Isolated.congr {events' : Nat → List Event} (inv : Isolated results s events)
    (same : ∀ i, events i = events' i) : Isolated results s events' :=
  funext same ▸ inv

variable {sha1 : Bytes → Bytes} {earlier : List ServerEvent}

theorem Isolated.step (inv : Isolated results s events) (made : s.made = admitted sha1 earlier)
    (closed : s.closed = earlier.any ends) (e : ServerEvent) :
    Isolated results (s.step results sha1 e) (fun i => events i ++ concerns sha1 i earlier e) := by
  cases e with
  | upgrade headers head =>
      simp only [Server.step, Server.upgrade, concerns, admits, ← made]
      cases handleUpgrade sha1 headers with
      | refused => exact inv.congr fun i => by simp
      | switched =>
          by_cases none : head = []
          · simp only [if_pos none]
            exact inv.add.congr fun i => by simp [none]
          · simp only [if_neg none]
            exact (inv.add.onSocket (Nat.lt_succ_self _) _).congr fun i => by
              simp [none, SocketEvent.event]
  | socket j e =>
      simp only [Server.step, concerns, ← made]
      split
      · rename_i there
        refine (inv.onSocket there e).congr fun i => ?_
        by_cases same : i = j
        · simp [same, there]
        · simp [same]
      · rename_i absent
        refine inv.congr fun i => ?_
        rw [if_neg, List.append_nil]
        rintro ⟨rfl, there⟩
        exact absent there
  | broadcast t =>
      simp only [Server.step, concerns, ← made]
      exact inv.broadcast t
  | close =>
      simp only [Server.step, concerns, ← made, ← closed]
      cases opened : s.closed with
      | true =>
          rw [Server.close, if_pos opened]
          exact inv.congr fun i => by simp
      | false => exact (inv.close opened).congr fun i => by simp

/-- The clients are counted, and the end of the server is kept. -/
theorem counts_step (inv : Isolated results s events) (made : s.made = admitted sha1 earlier)
    (closed : s.closed = earlier.any ends) (e : ServerEvent) :
    (s.step results sha1 e).made = admitted sha1 (earlier ++ [e]) ∧
      (s.step results sha1 e).closed = (earlier ++ [e]).any ends := by
  rw [admitted, List.countP_append, ← admitted, List.any_append, ← made, ← closed]
  cases e with
  | upgrade headers head =>
      simp only [Server.step, Server.upgrade]
      cases outcome : handleUpgrade sha1 headers with
      | refused => simp [admits, ends, outcome]
      | switched =>
          by_cases none : head = [] <;> simp [none, Server.onSocket, put, admits, ends, outcome]
  | socket j e =>
      simp only [Server.step]
      split <;> simp [Server.onSocket, put, admits, ends]
  | broadcast t =>
      obtain ⟨-, -, -, made, closed⟩ :=
        forClients_spec (sendTo results t) inv.unique s inv.unique
      rw [Server.step, broadcast_eq s inv.unique]
      simp [made, closed, admits, ends]
  | close =>
      obtain ⟨made, closed⟩ := close_spec inv
      simp [Server.step, made, closed, admits, ends]

/-- Whatever the other clients do, a connection is what it would be alone with its events; the set
has exactly the connections that are registered, and `broadcast` returns how many of them took the
text. -/
theorem clients_isolated (sha1 : Bytes → Bytes) (results : Nat → WriteResults)
    (events : List ServerEvent) :
    (run results sha1 events).made = admitted sha1 events ∧
    (∀ i < (run results sha1 events).made, (run results sha1 events).conn i =
      WsClient.run (results i) (eventsOf sha1 events i)) ∧
    (∀ i, i ∈ (run results sha1 events).clients ↔ i < (run results sha1 events).made ∧
      ((run results sha1 events).conn i).state.registered = true) ∧
    ∀ t, ((run results sha1 events).broadcast results t).2 =
      (run results sha1 events).clients.countP fun i =>
        (((run results sha1 events).conn i).state.sendText (results i) t).2 := by
  obtain ⟨inv, made, -⟩ : Isolated results (run results sha1 events) (eventsOf sha1 events) ∧
      (run results sha1 events).made = admitted sha1 events ∧
      (run results sha1 events).closed = events.any ends := by
    induction events using List.reverseRecOn with
    | nil =>
        refine ⟨⟨fun i below => absurd below (Nat.not_lt_zero i), fun _ _ => ⟨rfl, rfl⟩,
          fun i => ?_, List.nodup_nil⟩, rfl, rfl⟩
        exact ⟨fun mem => absurd mem List.not_mem_nil,
          fun made => absurd made.1 (Nat.not_lt_zero i)⟩
    | append_singleton events e ih =>
        obtain ⟨inv, made, closed⟩ := ih
        rw [run, List.foldl_concat, ← run, eventsOf_concat]
        exact ⟨inv.step made closed e, counts_step inv made closed e⟩
  refine ⟨made, inv.conn, inv.members, fun t => ?_⟩
  rw [broadcast_eq _ inv.unique]

end Server

end RoboticsIpc.WebSocketServer
