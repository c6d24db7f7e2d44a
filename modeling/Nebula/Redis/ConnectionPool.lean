import Mathlib.Data.List.Nodup
import Nebula.Lib.Interleaving

/- The connections to the Redis nodes: which are idle, who has which, and what is on the wire of
   each. A query may be dropped wherever it waits. -/
namespace ConnectionPool
open Interleaving

section Model

/-- A command as it is written once. -/
structure Request (Command : Type) where
  serial : Nat
  command : Command

structure Reply (Command Answer : Type) where
  request : Request Command
  answer : Answer

/-- What the server has not come to and what the client has not read. -/
structure Wire (Command Answer : Type) where
  node : Nat
  requests : List (Request Command)
  replies : List (Reply Command Answer)

structure ClusterConnection where
  conn : Nat
  in_query : Bool
  had_error : Bool
  node : Nat

structure Shared (Data Command Answer : Type) where
  conns : Nat → List Nat
  wires : Nat → Wire Command Answer
  opened : Nat
  serial : Nat
  data : Nat → Data

/-- A command that is tried again until it is answered, or a copy for another zone. -/
structure Job (Command : Type) where
  command : Command
  replicates : Bool

/-- Where a query is; `m` counts the attempts that are over. -/
inductive Place (Command Answer : Type) where
  | choosing (m : Nat)
  | connecting (m node : Nat)
  | asking (m : Nat) (conn : ClusterConnection)
  | awaiting (m : Nat) (conn : ClusterConnection) (request : Request Command)
  | answered (conn : ClusterConnection) (request : Request Command) (reply : Reply Command Answer)
  | finished (request : Request Command) (reply : Reply Command Answer)
  | failed
  | dropped

structure Query (Command Answer : Type) where
  job : Job Command
  place : Place Command Answer

inductive Choice where
  | get_conn (node : Nat)
  | no_zone
  | connected
  | refused
  | write
  | read
  | io_error
  | put_back
  | cancel

variable {Data Command Answer : Type}

def Shared.popped (shared : Shared Data Command Answer) (node : Nat) (rest : List Nat) :
    Shared Data Command Answer :=
  { shared with conns := Function.update shared.conns node rest }

def Shared.connected (shared : Shared Data Command Answer) (node : Nat) :
    Shared Data Command Answer :=
  { shared with
    opened := shared.opened + 1
    wires := Function.update shared.wires shared.opened ⟨node, [], []⟩ }

def Shared.rewired (shared : Shared Data Command Answer) (conn : Nat)
    (wire : Wire Command Answer) : Shared Data Command Answer :=
  { shared with wires := Function.update shared.wires conn wire }

def MAX_CONNS : Nat := 100

/-- Drop for ClusterConnection: the queue of the node takes it while it has room. -/
def ClusterConnection.drop (conn : ClusterConnection) (shared : Shared Data Command Answer) :
    Shared Data Command Answer :=
  if conn.in_query || conn.had_error then shared
  else if (shared.conns conn.node).length < MAX_CONNS then
    shared.popped conn.node (shared.conns conn.node ++ [conn.conn])
  else shared

def ClusterConnection.queried (conn : ClusterConnection) (error : Bool) : ClusterConnection :=
  { conn with in_query := false, had_error := error }

/-- The end of an attempt without an answer. -/
def again (job : Job Command) (m : Nat) : Place Command Answer :=
  if job.replicates then .failed else if m > 100 then .failed else .choosing (m + 1)

def get_conn (shared : Shared Data Command Answer) (m node : Nat) :
    Shared Data Command Answer × Place Command Answer :=
  match shared.conns node with
  | conn :: rest => (shared.popped node rest, .asking m ⟨conn, true, false, node⟩)
  | [] => (shared, .connecting m node)

def write (shared : Shared Data Command Answer) (job : Job Command) (m : Nat)
    (conn : ClusterConnection) : Shared Data Command Answer × Place Command Answer :=
  let wire := shared.wires conn.conn
  let request : Request Command := ⟨shared.serial, job.command⟩
  ({ shared.rewired conn.conn { wire with requests := wire.requests ++ [request] } with
      serial := shared.serial + 1 },
    .awaiting m conn request)

/-- A server that is still loading counts as a connection that has failed. -/
def read (loading : Answer → Bool) (shared : Shared Data Command Answer) (job : Job Command)
    (m : Nat) (conn : ClusterConnection) (request : Request Command) :
    Option (Shared Data Command Answer × Place Command Answer) :=
  let wire := shared.wires conn.conn
  match wire.replies with
  | [] => none
  | reply :: rest =>
    let shared := shared.rewired conn.conn { wire with replies := rest }
    if loading reply.answer then some ((conn.queried true).drop shared, again job m)
    else some (shared, .answered (conn.queried false) request reply)

def move (loading : Answer → Bool) (shared : Shared Data Command Answer) (job : Job Command) :
    Choice → Place Command Answer → Option (Shared Data Command Answer × Place Command Answer)
  | .get_conn node, .choosing m => some (get_conn shared m node)
  | .no_zone, .choosing m => some (shared, again job m)
  | .connected, .connecting m node =>
    some (shared.connected node, .asking m ⟨shared.opened, true, false, node⟩)
  | .refused, .connecting m _ => some (shared, again job m)
  | .write, .asking m conn => some (write shared job m conn)
  | .read, .awaiting m conn request => read loading shared job m conn request
  | .io_error, .asking m conn => some ((conn.queried true).drop shared, again job m)
  | .io_error, .awaiting m conn _ => some ((conn.queried true).drop shared, again job m)
  | .put_back, .answered conn request reply => some (conn.drop shared, .finished request reply)
  | .cancel, .choosing _ => some (shared, .dropped)
  | .cancel, .connecting _ _ => some (shared, .dropped)
  | .cancel, .asking _ conn => some (conn.drop shared, .dropped)
  | .cancel, .awaiting _ conn _ => some (conn.drop shared, .dropped)
  | _, _ => none

def step (loading : Answer → Bool) (choice : Choice) (shared : Shared Data Command Answer)
    (query : Query Command Answer) : Option (Shared Data Command Answer × Query Command Answer) :=
  (move loading shared query.job choice query.place).map fun moved =>
    (moved.1, { query with place := moved.2 })

/-- The server of a node runs the oldest command of one connection. -/
def serve (run : Command → Data → Data × Answer) (conn : Nat)
    (shared : Shared Data Command Answer) : Option (Shared Data Command Answer) :=
  let wire := shared.wires conn
  match wire.requests with
  | [] => none
  | request :: rest =>
    let (data, answer) := run request.command (shared.data wire.node)
    some { shared.rewired conn ⟨wire.node, rest, wire.replies ++ [⟨request, answer⟩]⟩ with
      data := Function.update shared.data wire.node data }

def pool (run : Command → Data → Data × Answer) (loading : Answer → Bool) :
    System (Shared Data Command Answer) (Query Command Answer) Choice Nat where
  step := fun _ choice shared query => step loading choice shared query
  outside := serve run

def start (data : Nat → Data) (jobs : Nat → Job Command) :
    World (Shared Data Command Answer) (Query Command Answer) :=
  ⟨⟨fun _ => [], fun _ => ⟨0, [], []⟩, 0, 0, data⟩, fun pid => ⟨jobs pid, .choosing 0⟩⟩

end Model

section Invariant
variable {Data Command Answer : Type}

def Place.holds : Place Command Answer → Option ClusterConnection
  | .asking _ conn | .awaiting _ conn _ | .answered conn _ _ => some conn
  | _ => none

/-- Nothing is on the way. -/
def Wire.Clean (wire : Wire Command Answer) : Prop := wire.requests = [] ∧ wire.replies = []

/-- The one request is still to be run, or its reply is to be read. -/
def Wire.Carries (wire : Wire Command Answer) (request : Request Command) : Prop :=
  (wire.requests = [request] ∧ wire.replies = []) ∨
    (wire.requests = [] ∧ ∃ answer, wire.replies = [⟨request, answer⟩])

structure Idle (shared : Shared Data Command Answer) : Prop where
  opened : ∀ node, ∀ conn ∈ shared.conns node, conn < shared.opened
  node : ∀ node, ∀ conn ∈ shared.conns node, (shared.wires conn).node = node
  clean : ∀ node, ∀ conn ∈ shared.conns node, (shared.wires conn).Clean
  once : ∀ node, (shared.conns node).Nodup
  room : ∀ node, (shared.conns node).length ≤ MAX_CONNS

/-- What the holder of a connection knows of it. -/
structure Held (shared : Shared Data Command Answer) (conn : ClusterConnection) : Prop where
  opened : conn.conn < shared.opened
  node : (shared.wires conn.conn).node = conn.node
  away : ∀ node, conn.conn ∉ shared.conns node

def Flow (shared : Shared Data Command Answer) (job : Job Command) : Place Command Answer → Prop
  | .asking _ conn => conn.in_query = true ∧ (shared.wires conn.conn).Clean
  | .awaiting _ conn request =>
    conn.in_query = true ∧ (shared.wires conn.conn).Carries request ∧
      request.command = job.command ∧ request.serial < shared.serial
  | .answered conn request reply =>
    (shared.wires conn.conn).Clean ∧ reply.request = request ∧ request.command = job.command
  | .finished request reply => reply.request = request ∧ request.command = job.command
  | _ => True

def Known (shared : Shared Data Command Answer) (query : Query Command Answer) : Prop :=
  (∀ conn, query.place.holds = some conn → Held shared conn) ∧ Flow shared query.job query.place

def Apart (query other : Query Command Answer) : Prop :=
  ∀ conn taken, query.place.holds = some conn → other.place.holds = some taken →
    conn.conn ≠ taken.conn

def outline : Outline (Shared Data Command Answer) (Query Command Answer) := ⟨Idle, Known, Apart⟩

/-- What a step leaves to those who have another connection. -/
structure Spares (shared after : Shared Data Command Answer) (conn : Nat) : Prop where
  opened : shared.opened ≤ after.opened
  serial : shared.serial ≤ after.serial
  others : ∀ other, other ≠ conn → other < shared.opened → after.wires other = shared.wires other
  away : ∀ node other, other ≠ conn → other ∈ after.conns node → ∃ node, other ∈ shared.conns node

end Invariant

section Steps
variable {Data Command Answer : Type} {shared after : Shared Data Command Answer}
  {job : Job Command} {query : Query Command Answer} {conn : ClusterConnection}

theorem apart_symm (query other : Query Command Answer) (apart : Apart query other) :
    Apart other query :=
  fun conn taken holds held => Ne.symm (apart taken conn held holds)

theorem spares_refl (conn : Nat) : Spares shared shared conn where
  opened := Nat.le_refl _
  serial := Nat.le_refl _
  others := fun _ _ _ => rfl
  away := fun node _ _ listed => ⟨node, listed⟩

theorem flow_of_spares {taken : Nat} (spares : Spares shared after taken)
    (elsewhere : ∀ conn, query.place.holds = some conn → conn.conn ≠ taken)
    (known : Known shared query) : Flow after query.job query.place := by
  obtain ⟨held, flow⟩ := known
  have same : ∀ conn, query.place.holds = some conn →
      after.wires conn.conn = shared.wires conn.conn := by
    intro conn holds
    exact spares.others _ (elsewhere conn holds) (held conn holds).opened
  cases place : query.place with
  | asking m conn =>
    rw [place] at flow
    rwa [Flow, same conn (by rw [place]; rfl)]
  | awaiting m conn request =>
    rw [place] at flow
    obtain ⟨inQuery, carries, command, serial⟩ := flow
    rw [Flow, same conn (by rw [place]; rfl)]
    exact ⟨inQuery, carries, command, Nat.lt_of_lt_of_le serial spares.serial⟩
  | answered conn request reply =>
    rw [place] at flow
    rwa [Flow, same conn (by rw [place]; rfl)]
  | finished request reply =>
    rw [place] at flow
    exact flow
  | choosing m | connecting m node | failed | dropped => trivial

/-- A query that has another connection, or none, still knows what it knew. -/
theorem known_of_spares {taken : Nat} (spares : Spares shared after taken)
    (elsewhere : ∀ conn, query.place.holds = some conn → conn.conn ≠ taken)
    (known : Known shared query) : Known after query := by
  constructor
  · intro conn holds
    have held := known.1 conn holds
    constructor
    · exact Nat.lt_of_lt_of_le held.opened spares.opened
    · rw [spares.others _ (elsewhere conn holds) held.opened]
      exact held.node
    · intro node listed
      obtain ⟨before, found⟩ := spares.away node _ (elsewhere conn holds) listed
      exact held.away before found
  · exact flow_of_spares spares elsewhere known

/-- The first of a queue is in no queue any more. -/
theorem popped_away {node first : Nat} {rest : List Nat} (idle : Idle shared)
    (queued : shared.conns node = first :: rest) :
    ∀ other, first ∉ (shared.popped node rest).conns other := by
  have listed : first ∈ shared.conns node := by simp [queued]
  intro other found
  by_cases same : other = node
  · subst same
    have once := idle.once other
    rw [queued] at once
    simp only [Shared.popped, Function.update_self] at found
    exact (List.nodup_cons.mp once).1 found
  · simp only [Shared.popped, Function.update_of_ne same] at found
    exact same ((idle.node other first found).symm.trans (idle.node node first listed))

theorem popped_listed {node : Nat} {rest : List Nat} {other conn : Nat}
    (shorter : ∀ conn ∈ rest, conn ∈ shared.conns node)
    (found : conn ∈ (shared.popped node rest).conns other) : conn ∈ shared.conns other := by
  by_cases same : other = node
  · subst same
    simp only [Shared.popped, Function.update_self] at found
    exact shorter conn found
  · simpa only [Shared.popped, Function.update_of_ne same] using found

/-- A queue of a node may be any of its clean connections, each once. -/
theorem idle_requeued {node : Nat} {queue : List Nat} (idle : Idle shared)
    (own : ∀ conn ∈ queue, conn < shared.opened ∧ (shared.wires conn).node = node ∧
      (shared.wires conn).Clean)
    (once : queue.Nodup) (room : queue.length ≤ MAX_CONNS) : Idle (shared.popped node queue) := by
  have found : ∀ other, other = node ∧ (shared.popped node queue).conns other = queue ∨
      other ≠ node ∧ (shared.popped node queue).conns other = shared.conns other := by
    intro other
    by_cases same : other = node
    · subst same
      exact Or.inl ⟨rfl, Function.update_self _ _ _⟩
    · exact Or.inr ⟨same, Function.update_of_ne same _ _⟩
  have listed : ∀ other, ∀ conn ∈ (shared.popped node queue).conns other,
      conn < shared.opened ∧ (shared.wires conn).node = other ∧ (shared.wires conn).Clean := by
    intro other conn among
    rcases found other with ⟨rfl, queued⟩ | ⟨_, queued⟩ <;> rw [queued] at among
    · exact own conn among
    · exact ⟨idle.opened other conn among, idle.node other conn among, idle.clean other conn among⟩
  constructor
  · exact fun other conn among => (listed other conn among).1
  · exact fun other conn among => (listed other conn among).2.1
  · exact fun other conn among => (listed other conn among).2.2
  · intro other
    rcases found other with ⟨_, queued⟩ | ⟨_, queued⟩ <;> rw [queued]
    · exact once
    · exact idle.once other
  · intro other
    rcases found other with ⟨_, queued⟩ | ⟨_, queued⟩ <;> rw [queued]
    · exact room
    · exact idle.room other

theorem idle_own (idle : Idle shared) {node conn : Nat} (listed : conn ∈ shared.conns node) :
    conn < shared.opened ∧ (shared.wires conn).node = node ∧ (shared.wires conn).Clean :=
  ⟨idle.opened node conn listed, idle.node node conn listed, idle.clean node conn listed⟩

theorem idle_popped {node first : Nat} {rest : List Nat} (idle : Idle shared)
    (queued : shared.conns node = first :: rest) : Idle (shared.popped node rest) := by
  have once := idle.once node
  have room := idle.room node
  rw [queued] at once room
  apply idle_requeued idle _ (List.nodup_cons.mp once).2 (Nat.le_of_succ_le room)
  exact fun conn listed => idle_own idle (by rw [queued]; exact List.mem_cons_of_mem _ listed)

theorem spares_popped {node first : Nat} {rest : List Nat}
    (queued : shared.conns node = first :: rest) : Spares shared (shared.popped node rest) first where
  opened := Nat.le_refl _
  serial := Nat.le_refl _
  others := fun _ _ _ => rfl
  away := fun other _ _ found =>
    ⟨other, popped_listed (fun conn listed => by simp [queued, listed]) found⟩

/-- As long as the wires of the idle connections are as they were. -/
theorem idle_of_older (idle : Idle shared) (conns : after.conns = shared.conns)
    (opened : shared.opened ≤ after.opened)
    (older : ∀ node, ∀ conn ∈ shared.conns node, after.wires conn = shared.wires conn) :
    Idle after := by
  constructor <;> rw [conns]
  · exact fun node conn listed => Nat.lt_of_lt_of_le (idle.opened node conn listed) opened
  · intro node conn listed
    rw [older node conn listed]
    exact idle.node node conn listed
  · intro node conn listed
    rw [older node conn listed]
    exact idle.clean node conn listed
  · exact idle.once
  · exact idle.room

theorem idle_connected (idle : Idle shared) (node : Nat) : Idle (shared.connected node) :=
  idle_of_older idle rfl (Nat.le_succ _) fun other conn listed =>
    Function.update_of_ne (Nat.ne_of_lt (idle.opened other conn listed)) _ _

theorem spares_connected (node : Nat) : Spares shared (shared.connected node) shared.opened where
  opened := Nat.le_succ _
  serial := Nat.le_refl _
  others := fun _ other _ => Function.update_of_ne other _ _
  away := fun node _ _ listed => ⟨node, listed⟩

theorem rewired_older {conn : Nat} (wire : Wire Command Answer)
    (away : ∀ node, conn ∉ shared.conns node) :
    ∀ node, ∀ idle ∈ shared.conns node,
      (shared.rewired conn wire).wires idle = shared.wires idle := by
  intro node idle listed
  apply Function.update_of_ne
  rintro rfl
  exact away node listed

theorem spares_rewired (shared : Shared Data Command Answer) (conn : Nat) (wire : Wire Command Answer) :
    Spares shared (shared.rewired conn wire) conn where
  opened := Nat.le_refl _
  serial := Nat.le_refl _
  others := fun _ other _ => Function.update_of_ne other _ _
  away := fun node _ _ listed => ⟨node, listed⟩

theorem spares_drop (conn : ClusterConnection) : Spares shared (conn.drop shared) conn.conn := by
  unfold ClusterConnection.drop
  split
  · exact spares_refl _
  · split
    · constructor
      · exact Nat.le_refl _
      · exact Nat.le_refl _
      · exact fun _ _ _ => rfl
      · intro node other different found
        by_cases same : node = conn.node
        · subst same
          simp only [Shared.popped, Function.update_self, List.mem_append, List.mem_singleton]
            at found
          exact ⟨_, found.resolve_right different⟩
        · simp only [Shared.popped, Function.update_of_ne same] at found
          exact ⟨node, found⟩
    · exact spares_refl _

/-- A connection goes back with nothing on its wire, or it does not go back. -/
theorem idle_drop (idle : Idle shared) (held : Held shared conn)
    (clean : (conn.in_query || conn.had_error) = false → (shared.wires conn.conn).Clean) :
    Idle (conn.drop shared) := by
  unfold ClusterConnection.drop
  split
  · exact idle
  · rename_i unmarked
    split
    · rename_i room
      apply idle_requeued idle
      · intro other listed
        rcases List.mem_append.mp listed with before | only
        · exact idle_own idle before
        · rw [List.mem_singleton.mp only]
          exact ⟨held.opened, held.node, clean (Bool.eq_false_iff.mpr unmarked)⟩
      · refine List.nodup_append.mpr ⟨idle.once _, List.nodup_singleton _, ?_⟩
        rintro other before taken only rfl
        rw [List.mem_singleton.mp only] at before
        exact held.away _ before
      · rw [List.length_append, List.length_singleton]
        omega
    · exact idle

/-- A step that leaves a query with one connection at most, which none of the others has. -/
structure Moves (shared : Shared Data Command Answer) (job : Job Command)
    (place : Place Command Answer) (after : Shared Data Command Answer)
    (next : Place Command Answer) (taken : Nat) : Prop where
  idle : Idle after
  known : Known after ⟨job, next⟩
  spares : Spares shared after taken
  mine : ∀ conn, next.holds = some conn → conn.conn = taken
  claimed : (∃ conn, place.holds = some conn ∧ conn.conn = taken) ∨
    (∃ node, taken ∈ shared.conns node) ∨ shared.opened ≤ taken

theorem claimed_elsewhere {place next : Place Command Answer} {taken : Nat}
    (moves : Moves shared job place after next taken) {other : Query Command Answer}
    (known : Known shared other) (apart : Apart ⟨job, place⟩ other) :
    ∀ conn, other.place.holds = some conn → conn.conn ≠ taken := by
  intro conn holds
  rcases moves.claimed with ⟨mine, held, rfl⟩ | ⟨node, listed⟩ | new
  · exact Ne.symm (apart mine conn held holds)
  · rintro rfl
    exact (known.1 conn holds).away node listed
  · have opened := (known.1 conn holds).opened
    omega

theorem holds_again (m : Nat) : (again job m : Place Command Answer).holds = none := by
  unfold again
  split
  · rfl
  · split <;> rfl

theorem flow_again (m : Nat) : Flow after job (again job m) := by
  unfold again
  split
  · trivial
  · split <;> trivial

theorem moves_empty {place next : Place Command Answer} {taken : Nat} (idle : Idle after)
    (nothing : next.holds = none) (flow : Flow after job next)
    (spares : Spares shared after taken)
    (claimed : (∃ conn, place.holds = some conn ∧ conn.conn = taken) ∨
      (∃ node, taken ∈ shared.conns node) ∨ shared.opened ≤ taken) :
    Moves shared job place after next taken where
  idle := idle
  known := ⟨fun _ holds => (nomatch nothing.symm.trans holds), flow⟩
  spares := spares
  mine := fun _ holds => (nomatch nothing.symm.trans holds)
  claimed := claimed

/-- The connection that is closed or put back is the one that the query had. -/
theorem moves_drop {place next : Place Command Answer} {mark : ClusterConnection}
    (idle : Idle shared) (known : Known shared ⟨job, place⟩) (holds : place.holds = some conn)
    (same : mark.conn = conn.conn ∧ mark.node = conn.node)
    (clean : (mark.in_query || mark.had_error) = false → (shared.wires conn.conn).Clean)
    (nothing : next.holds = none) (flow : Flow (mark.drop shared) job next) :
    Moves shared job place (mark.drop shared) next mark.conn := by
  have held := known.1 conn holds
  apply moves_empty
  · apply idle_drop idle
    · constructor
      · rw [same.1]
        exact held.opened
      · rw [same.1, same.2]
        exact held.node
      · rw [same.1]
        exact held.away
    · rwa [same.1]
  · exact nothing
  · exact flow
  · exact spares_drop mark
  · exact Or.inl ⟨conn, holds, same.1.symm⟩

theorem moves_get_conn (job : Job Command) (m node : Nat) (idle : Idle shared) :
    ∃ taken, Moves shared job (.choosing m) (get_conn shared m node).1 (get_conn shared m node).2
      taken := by
  unfold get_conn
  split
  · rename_i first rest queued
    have listed : first ∈ shared.conns node := by simp [queued]
    refine ⟨first, idle_popped idle queued, ⟨?_, rfl, idle.clean node first listed⟩,
      spares_popped queued, ?_, Or.inr (Or.inl ⟨node, listed⟩)⟩
    · intro conn holds
      cases holds
      exact ⟨idle.opened node first listed, idle.node node first listed, popped_away idle queued⟩
    · intro conn holds
      cases holds
      rfl
  · exact ⟨shared.opened, moves_empty idle rfl trivial (spares_refl _)
      (Or.inr (Or.inr (Nat.le_refl _)))⟩

theorem moves_connected {m node : Nat} (idle : Idle shared) :
    Moves shared job (.connecting m node) (shared.connected node)
      (.asking m ⟨shared.opened, true, false, node⟩) shared.opened := by
  have wired : (shared.connected node).wires shared.opened = ⟨node, [], []⟩ :=
    Function.update_self _ _ _
  refine ⟨idle_connected idle node, ⟨?_, rfl, ?_⟩, spares_connected node, ?_,
    Or.inr (Or.inr (Nat.le_refl _))⟩
  · intro conn holds
    cases holds
    refine ⟨Nat.lt_succ_self _, by rw [wired], ?_⟩
    intro other listed
    exact Nat.lt_irrefl _ (idle.opened other _ listed)
  · rw [wired]
    exact ⟨rfl, rfl⟩
  · intro conn holds
    cases holds
    rfl

theorem moves_write {m : Nat} (idle : Idle shared) (known : Known shared ⟨job, .asking m conn⟩) :
    Moves shared job (.asking m conn) (write shared job m conn).1 (write shared job m conn).2
      conn.conn := by
  have held := known.1 conn rfl
  obtain ⟨inQuery, requests, replies⟩ := known.2
  have rewired := spares_rewired shared conn.conn { shared.wires conn.conn with
    requests := (shared.wires conn.conn).requests ++ [⟨shared.serial, job.command⟩] }
  refine ⟨?_, ⟨?_, inQuery, Or.inl ?_, rfl, Nat.lt_succ_self _⟩, ?_, ?_, Or.inl ⟨conn, rfl, rfl⟩⟩
  · exact idle_of_older idle rfl (Nat.le_refl _) (rewired_older _ held.away)
  · intro other holds
    cases holds
    refine ⟨held.opened, ?_, held.away⟩
    simpa only [write, Shared.rewired, Function.update_self] using held.node
  · simp [write, Shared.rewired, requests, replies]
  · exact ⟨rewired.opened, Nat.le_succ _, rewired.others, rewired.away⟩
  · intro other holds
    cases holds
    rfl

theorem moves_read {loading : Answer → Bool} {m : Nat} {request : Request Command}
    {next : Place Command Answer} (idle : Idle shared)
    (known : Known shared ⟨job, .awaiting m conn request⟩)
    (done : read loading shared job m conn request = some (after, next)) :
    Moves shared job (.awaiting m conn request) after next conn.conn := by
  have held := known.1 conn rfl
  obtain ⟨inQuery, carries, command, serial⟩ := known.2
  unfold read at done
  dsimp only at done
  split at done
  · cases done
  · rename_i reply rest arrived
    obtain ⟨requests, answer, replies⟩ : (shared.wires conn.conn).requests = [] ∧
        ∃ answer, (shared.wires conn.conn).replies = [⟨request, answer⟩] := by
      rcases carries with ⟨_, none⟩ | run
      · rw [none] at arrived
        cases arrived
      · exact run
    rw [replies] at arrived
    obtain ⟨rfl, rfl⟩ := List.cons.inj arrived
    let emptied : Wire Command Answer := { shared.wires conn.conn with replies := [] }
    have cleared : Idle (shared.rewired conn.conn emptied) :=
      idle_of_older idle rfl (Nat.le_refl _) (rewired_older _ held.away)
    have rewired := spares_rewired shared conn.conn emptied
    have kept : Held (shared.rewired conn.conn emptied) conn := by
      refine ⟨held.opened, ?_, held.away⟩
      simpa only [Shared.rewired, Function.update_self] using held.node
    split at done
    · obtain ⟨rfl, rfl⟩ := Prod.mk.inj (Option.some.inj done)
      exact moves_empty cleared (holds_again m) (flow_again m) rewired (Or.inl ⟨conn, rfl, rfl⟩)
    · obtain ⟨rfl, rfl⟩ := Prod.mk.inj (Option.some.inj done)
      refine ⟨cleared, ⟨?_, ?_, rfl, command⟩, rewired, ?_, Or.inl ⟨conn, rfl, rfl⟩⟩
      · intro other holds
        cases holds
        exact ⟨kept.opened, kept.node, kept.away⟩
      · simp [Shared.rewired, ClusterConnection.queried, Wire.Clean, requests]
      · intro other holds
        cases holds
        rfl

theorem moves_of_move {loading : Answer → Bool} {choice : Choice} {place next : Place Command Answer}
    (idle : Idle shared) (known : Known shared ⟨job, place⟩)
    (moved : move loading shared job choice place = some (after, next)) :
    ∃ taken, Moves shared job place after next taken := by
  have nothing : ∀ {place next : Place Command Answer}, next.holds = none → Flow shared job next →
      ∃ taken, Moves shared job place shared next taken := by
    intro place next nothing flow
    exact ⟨shared.opened, moves_empty idle nothing flow (spares_refl _)
      (Or.inr (Or.inr (Nat.le_refl _)))⟩
  have closes : ∀ {mark conn : ClusterConnection} {next : Place Command Answer},
      (mark.in_query || mark.had_error) = true → place.holds = some conn →
      (mark.conn = conn.conn ∧ mark.node = conn.node) → next.holds = none →
      Flow (mark.drop shared) job next →
      ∃ taken, Moves shared job place (mark.drop shared) next taken := by
    intro mark conn next marked holds same nothing flow
    exact ⟨_, moves_drop idle known holds same (fun unmarked => nomatch marked.symm.trans unmarked)
      nothing flow⟩
  cases choice <;> cases place <;> simp only [move, reduceCtorEq, Option.some.injEq] at moved
  case get_conn.choosing node m =>
    obtain ⟨taken, moves⟩ := moves_get_conn job m node idle
    rw [moved] at moves
    exact ⟨taken, moves⟩
  case no_zone.choosing | refused.connecting =>
    obtain ⟨rfl, rfl⟩ := Prod.mk.inj moved
    exact nothing (holds_again _) (flow_again _)
  case connected.connecting m node =>
    obtain ⟨rfl, rfl⟩ := Prod.mk.inj moved
    exact ⟨_, moves_connected idle⟩
  case write.asking m conn =>
    have moves := moves_write idle known
    rw [moved] at moves
    exact ⟨_, moves⟩
  case read.awaiting m conn request =>
    exact ⟨_, moves_read idle known moved⟩
  case io_error.asking | io_error.awaiting =>
    obtain ⟨rfl, rfl⟩ := Prod.mk.inj moved
    exact closes rfl rfl ⟨rfl, rfl⟩ (holds_again _) (flow_again _)
  case put_back.answered conn request reply =>
    obtain ⟨rfl, rfl⟩ := Prod.mk.inj moved
    exact ⟨_, moves_drop idle known rfl ⟨rfl, rfl⟩ (fun _ => known.2.1) rfl known.2.2⟩
  case cancel.choosing | cancel.connecting =>
    obtain ⟨rfl, rfl⟩ := Prod.mk.inj moved
    exact nothing rfl trivial
  case cancel.asking | cancel.awaiting =>
    obtain ⟨rfl, rfl⟩ := Prod.mk.inj moved
    exact closes (by rw [known.2.1]; rfl) rfl ⟨rfl, rfl⟩ rfl trivial

theorem keeps_of_moves {world : World (Shared Data Command Answer) (Query Command Answer)}
    {pid taken : Nat} {place : Place Command Answer} {next : Query Command Answer}
    (holds : outline.Holds world) (current : world.procs pid = ⟨next.job, place⟩)
    (moves : Moves world.shared next.job place after next.place taken) :
    outline.Keeps world pid after next := by
  have elsewhere : ∀ other, other ≠ pid → ∀ conn, (world.procs other).place.holds = some conn →
      conn.conn ≠ taken := by
    intro other different
    apply claimed_elsewhere moves (holds.known other)
    rw [← current]
    exact holds.apart pid other (Ne.symm different)
  constructor
  · exact moves.idle
  · exact moves.known
  · exact fun other different =>
      known_of_spares moves.spares (elsewhere other different) (holds.known other)
  · intro other different conn held mine theirs same
    apply elsewhere other different held theirs
    rw [← same]
    exact moves.mine conn mine

/-- A server that answers leaves every wire as its holder knows it. -/
theorem known_served {run : Command → Data → Data × Answer} {conn : Nat} {query : Query Command Answer}
    (known : Known shared query) (served : serve run conn shared = some after) :
    Known after query := by
  unfold serve at served
  dsimp only at served
  split at served
  · cases served
  · rename_i request rest asked
    obtain rfl := Option.some.inj served
    obtain ⟨held, flow⟩ := known
    have wired : ∀ other, ((shared.rewired conn ⟨(shared.wires conn).node, rest,
        (shared.wires conn).replies ++ [⟨request, (run request.command
          (shared.data (shared.wires conn).node)).2⟩]⟩).wires other).node =
        (shared.wires other).node := by
      intro other
      by_cases same : other = conn
      · subst same
        simp only [Shared.rewired, Function.update_self]
      · simp only [Shared.rewired, Function.update_of_ne same]
    have quiet : ∀ {other}, (shared.wires other).Clean → other ≠ conn := by
      rintro other clean rfl
      rw [clean.1] at asked
      cases asked
    constructor
    · intro mine holds
      exact ⟨(held mine holds).opened, (wired _).trans (held mine holds).node,
        (held mine holds).away⟩
    · cases place : query.place with
      | asking m mine =>
        rw [place] at flow
        obtain ⟨inQuery, clean⟩ := flow
        simpa only [Flow, Shared.rewired, Function.update_of_ne (quiet clean)] using
          And.intro inQuery clean
      | awaiting m mine own =>
        rw [place] at flow
        obtain ⟨inQuery, carries, command, serial⟩ := flow
        refine ⟨inQuery, ?_, command, serial⟩
        by_cases same : mine.conn = conn
        · rw [same] at carries
          rcases carries with ⟨waiting, none⟩ | ⟨gone, _⟩
          · rw [asked] at waiting
            obtain ⟨rfl, rfl⟩ := List.cons.inj waiting
            right
            simp only [Shared.rewired, same, Function.update_self, none, List.nil_append, true_and]
            exact ⟨_, rfl⟩
          · rw [gone] at asked
            cases asked
        · simpa only [Shared.rewired, Function.update_of_ne same] using carries
      | answered mine own reply =>
        rw [place] at flow
        obtain ⟨clean, right⟩ := flow
        simpa only [Flow, Shared.rewired, Function.update_of_ne (quiet clean)] using
          And.intro clean right
      | finished own reply =>
        rw [place] at flow
        exact flow
      | choosing m | connecting m node | failed | dropped => trivial

theorem idle_served {run : Command → Data → Data × Answer} {conn : Nat} (idle : Idle shared)
    (served : serve run conn shared = some after) : Idle after := by
  unfold serve at served
  dsimp only at served
  split at served
  · cases served
  · rename_i request rest asked
    obtain rfl := Option.some.inj served
    have away : ∀ node, conn ∉ shared.conns node := by
      intro node listed
      rw [(idle.clean node conn listed).1] at asked
      cases asked
    exact idle_of_older idle rfl (Nat.le_refl _) (rewired_older _ away)

end Steps

section Pool
variable {Data Command Answer : Type} (run : Command → Data → Data × Answer)
  (loading : Answer → Bool) (data : Nat → Data) (jobs : Nat → Job Command)

theorem outline_holds {world : World (Shared Data Command Answer) (Query Command Answer)}
    (reached : Run (pool run loading) (fun _ _ => True) (start data jobs) world) :
    outline.Holds world := by
  apply outline.run_holds apart_symm _ _ _ reached
  · constructor
    · exact ⟨nofun, nofun, nofun, fun _ => List.nodup_nil, fun _ => Nat.zero_le _⟩
    · exact fun _ => ⟨nofun, trivial⟩
    · exact fun _ _ _ => nofun
  · intro world pid choice after next holds _ stepped
    simp only [pool, step, Option.map_eq_some_iff] at stepped
    obtain ⟨⟨shared, place⟩, moved, same⟩ := stepped
    obtain ⟨rfl, rfl⟩ := Prod.mk.inj same
    obtain ⟨taken, moves⟩ := moves_of_move holds.whole (holds.known pid) moved
    exact keeps_of_moves holds rfl moves
  · intro world conn after holds _ served
    constructor
    · exact idle_served holds.whole served
    · exact fun pid => known_served (holds.known pid) served
    · exact holds.apart

/-- Every idle connection is one of the node it waits for, with nothing on its wire, and no query
    has it; no two queries have the same; and each gets the reply to what it has asked. -/
structure Sound (world : World (Shared Data Command Answer) (Query Command Answer))
    (jobs : Nat → Job Command) : Prop where
  room : ∀ node, (world.shared.conns node).length ≤ MAX_CONNS ∧ (world.shared.conns node).Nodup
  clean : ∀ node, ∀ conn ∈ world.shared.conns node,
    (world.shared.wires conn).node = node ∧ (world.shared.wires conn).Clean
  owned : ∀ pid conn, (world.procs pid).place.holds = some conn →
    (world.shared.wires conn.conn).node = conn.node ∧
      ∀ node, conn.conn ∉ world.shared.conns node
  single : ∀ pid other conn taken, (world.procs pid).place.holds = some conn →
    (world.procs other).place.holds = some taken → conn.conn = taken.conn → pid = other
  reply : ∀ pid conn request reply, (world.procs pid).place = .answered conn request reply ∨
    (world.procs pid).place = .finished request reply →
      reply.request = request ∧ request.command = (jobs pid).command

theorem job_kept {world : World (Shared Data Command Answer) (Query Command Answer)}
    (reached : Run (pool run loading) (fun _ _ => True) (start data jobs) world) :
    ∀ pid, (world.procs pid).job = jobs pid := by
  apply run_keeps (fun world => ∀ pid, (world.procs pid).job = jobs pid) (fun _ => rfl) _ reached
  intro world action after kept _ acted
  rcases act_cases acted with ⟨pid, choice, shared, next, rfl, stepped, rfl⟩ |
    ⟨conn, shared, rfl, _, rfl⟩
  · simp only [pool, step, Option.map_eq_some_iff] at stepped
    obtain ⟨moved, _, same⟩ := stepped
    obtain ⟨_, rfl⟩ := Prod.mk.inj same
    exact all_moved (fun pid (query : Query Command Answer) => query.job = jobs pid) (kept pid)
      fun other _ => kept other
  · exact kept

theorem pool_sound {world : World (Shared Data Command Answer) (Query Command Answer)}
    (reached : Run (pool run loading) (fun _ _ => True) (start data jobs) world) :
    Sound world jobs := by
  have holds := outline_holds run loading data jobs reached
  constructor
  · exact fun node => ⟨holds.whole.room node, holds.whole.once node⟩
  · exact fun node conn listed => ⟨holds.whole.node node conn listed, holds.whole.clean node conn listed⟩
  · intro pid conn held
    have known := (holds.known pid).1 conn held
    exact ⟨known.node, known.away⟩
  · intro pid other conn taken held theirs same
    by_contra different
    exact holds.apart pid other different conn taken held theirs same
  · intro pid conn request reply place
    have flow := (holds.known pid).2
    rw [job_kept run loading data jobs reached pid] at flow
    rcases place with answered | finished
    · rw [answered] at flow
      exact flow.2
    · rw [finished] at flow
      exact flow

/-- The first query is dropped before its reply has come; the third finds the connection of the
    second, and reads its own reply. -/
def dropped : List (Action Choice Nat) :=
  [.proc 0 (.get_conn 3), .proc 0 .connected, .proc 0 .write, .proc 0 .cancel, .outside 0,
    .proc 1 (.get_conn 3), .proc 1 .connected, .proc 1 .write, .outside 1, .proc 1 .read,
    .proc 1 .put_back, .proc 2 (.get_conn 3), .proc 2 .write, .outside 1, .proc 2 .read]

theorem pool_sound_dropped : ∃ world,
    runAll (pool (fun command data => (data + command, data)) (fun _ => false))
        (start (fun _ => 0) (fun pid => ⟨pid + 1, false⟩)) dropped = some world ∧
      (world.procs 2).place = .answered ⟨1, false, false, 3⟩ ⟨2, 3⟩ ⟨⟨2, 3⟩, 3⟩ ∧
      Sound world (fun pid => ⟨pid + 1, false⟩) :=
  ⟨_, rfl, rfl, pool_sound (fun command data => (data + command, data)) (fun _ => false)
    (fun _ => 0) (fun pid => ⟨pid + 1, false⟩) (run_of_runAll dropped rfl)⟩

end Pool
end ConnectionPool
