import Mathlib.Logic.Function.Basic
import Nebula.Lib.DecimalText
import Nebula.Lib.Runs

/- The two pools of the media server that keep a worker for each flow of packets:
   NewSessionPool and PeerConnectionPool. Their main loops differ in the key of a
   flow and in what else a Stop removes. A worker is the task spawned for a new
   channel; its number is the number of that channel's sender and receiver. -/
namespace WorkerPools
open Runs DecimalText
variable {Flow Key Item : Type}

/-- A worker holds its receiver until it ends, and tells the pool so afterwards. -/
inductive Stage where
  | running
  | dropped
  | stopped
  deriving DecidableEq, Repr

structure Worker (Flow Item : Type) where
  flow : Flow
  inbox : List Item
  stage : Stage

/-- The pool reads the key of a Stop only; which worker sent it is kept beside it. -/
inductive PoolMessage (Flow Key Item : Type) where
  | Packet (flow : Flow) (item : Item)
  | Stop (key : Key) (sentBy : Nat)

structure Pool (Flow Key Item : Type) where
  queue : List (PoolMessage Flow Key Item)
  entries : Key → Option Nat
  workers : List (Worker Flow Item)
  deleted : List Key

def Pool.idle : Pool Flow Key Item := ⟨[], fun _ => none, [], []⟩

def Pool.setStage (pool : Pool Flow Key Item) (worker : Nat) (stage : Stage) :
    Pool Flow Key Item :=
  { pool with workers := pool.workers.modify worker fun found => { found with stage := stage } }

def Pool.push (pool : Pool Flow Key Item) (worker : Nat) (item : Item) : Pool Flow Key Item :=
  { pool with workers :=
      pool.workers.modify worker fun found => { found with inbox := found.inbox ++ [item] } }

/-- Sending fails once the receiver is dropped. -/
def send (worker : Nat) (item : Item) (pool : Pool Flow Key Item) :
    Option (Pool Flow Key Item) :=
  match pool.workers[worker]? with
  | some found =>
    match found.stage with
    | .running => some (pool.push worker item)
    | _ => none
  | none => none

def create [DecidableEq Key] (keyOf : Flow → Key) (flow : Flow) (item : Item) (pool : Pool Flow Key Item) :
    Pool Flow Key Item :=
  { pool with
    entries := Function.update pool.entries (keyOf flow) (some pool.workers.length)
    workers := pool.workers ++ [⟨flow, [item], .running⟩] }

/-- The Packet arm of both loops. -/
def route [DecidableEq Key] (keyOf : Flow → Key) (flow : Flow) (item : Item) (pool : Pool Flow Key Item) :
    Pool Flow Key Item :=
  match pool.entries (keyOf flow) with
  | some worker =>
    match send worker item pool with
    | some after => after
    | none => create keyOf flow item pool
  | none => create keyOf flow item pool

def remove [DecidableEq Key] (key : Key) (pool : Pool Flow Key Item) : Pool Flow Key Item :=
  { pool with entries := Function.update pool.entries key none }

structure SessionFlow where
  port : UInt16
  peerIp : UInt8 × UInt8 × UInt8 × UInt8
  peerPort : UInt16
  deriving DecidableEq, Repr

def ipText : UInt8 × UInt8 × UInt8 × UInt8 → List Char
  | (a, b, c, d) =>
    digits a.toNat ++ '.' :: (digits b.toNat ++ '.' :: (digits c.toNat ++ '.' :: digits d.toNat))

def sessionId (flow : SessionFlow) : List Char :=
  digits flow.port.toNat ++ '-' :: (ipText flow.peerIp ++ ':' :: digits flow.peerPort.toNat)

inductive SocketAddr where
  | V4 (ip : BitVec 32) (port : UInt16)
  | V6 (ip : BitVec 128) (port : UInt16) (flowinfo scopeId : UInt32)
  deriving DecidableEq, Repr

abbrev NewSessionPool (Item : Type) := Pool SessionFlow (List Char) Item

abbrev PeerConnectionPool (Item : Type) := Pool SocketAddr SocketAddr Item

def NewSessionPool.handle (pool : NewSessionPool Item) :
    PoolMessage SessionFlow (List Char) Item → NewSessionPool Item
  | .Stop sessionId _ => remove sessionId pool
  | .Packet flow item => route sessionId flow item pool

/-- A Stop also deletes what Redis keeps of the address. -/
def PeerConnectionPool.handle (pool : PeerConnectionPool Item) :
    PoolMessage SocketAddr SocketAddr Item → PeerConnectionPool Item
  | .Packet addr item => route id addr item pool
  | .Stop addr _ => { remove addr pool with deleted := pool.deleted ++ [addr] }

inductive Event (Flow Item : Type) where
  | arrive (flow : Flow) (item : Item)
  | receive
  | drop (worker : Nat)
  | stop (worker : Nat)

/-- Packets are queued by the listening tasks, the pool takes one message at a time,
    and each worker ends in two steps of its own. -/
def poolStep (keyOf : Flow → Key)
    (handle : Pool Flow Key Item → PoolMessage Flow Key Item → Pool Flow Key Item) :
    Machine (Pool Flow Key Item) (Event Flow Item) := fun pool event =>
  match event with
  | .arrive flow item => some { pool with queue := pool.queue ++ [.Packet flow item] }
  | .receive =>
    match pool.queue with
    | message :: rest => some (handle { pool with queue := rest } message)
    | [] => none
  | .drop worker =>
    match pool.workers[worker]? with
    | some found =>
      match found.stage with
      | .running => some (pool.setStage worker .dropped)
      | _ => none
    | none => none
  | .stop worker =>
    match pool.workers[worker]? with
    | some found =>
      match found.stage with
      | .dropped =>
        some { pool.setStage worker .stopped with
          queue := pool.queue ++ [.Stop (keyOf found.flow) worker] }
      | _ => none
    | none => none

def NewSessionPool.step : Machine (NewSessionPool Item) (Event SessionFlow Item) :=
  poolStep sessionId NewSessionPool.handle

def PeerConnectionPool.step : Machine (PeerConnectionPool Item) (Event SocketAddr Item) :=
  poolStep id PeerConnectionPool.handle

def At (pool : Pool Flow Key Item) (worker : Nat) (flow : Flow) (stage : Stage) : Prop :=
  ∃ found, pool.workers[worker]? = some found ∧ found.flow = flow ∧ found.stage = stage

structure OneWorker (keyOf : Flow → Key) (pool : Pool Flow Key Item) : Prop where
  unique : ∀ flow first second,
    At pool first flow .running → At pool second flow .running → first = second
  entered : ∀ flow worker, At pool worker flow .running → pool.entries (keyOf flow) = some worker
  owned : ∀ flow worker, pool.entries (keyOf flow) = some worker → ∃ stage, At pool worker flow stage
  ownStop : ∀ key sentBy held rest, pool.queue = .Stop key sentBy :: rest →
    pool.entries key = some held → held ≤ sentBy

/-- A packet is taken only while its flow has no entry or the entry's worker still
    holds its receiver. -/
def NoDeadEntry (keyOf : Flow → Key) : Guard (Pool Flow Key Item) (Event Flow Item) :=
  fun pool event => event = .receive → ∀ flow item rest worker,
    pool.queue = .Packet flow item :: rest → pool.entries (keyOf flow) = some worker →
      At pool worker flow .running

theorem ip_text_injective {left right : UInt8 × UInt8 × UInt8 × UInt8}
    (same : ipText left = ipText right) : left = right := by
  obtain ⟨a, b, c, d⟩ := left
  obtain ⟨a', b', c', d'⟩ := right
  have dot : ∀ number, '.' ∉ digits number := fun number => not_mem_digits number rfl
  obtain ⟨first, rest⟩ := separated (dot _) (dot _) same
  obtain ⟨second, rest⟩ := separated (dot _) (dot _) rest
  obtain ⟨third, fourth⟩ := separated (dot _) (dot _) rest
  rw [UInt8.toNat_inj.mp (digits_injective first), UInt8.toNat_inj.mp (digits_injective second),
    UInt8.toNat_inj.mp (digits_injective third), UInt8.toNat_inj.mp (digits_injective fourth)]

theorem colon_not_mem_ip (ip : UInt8 × UInt8 × UInt8 × UInt8) : ':' ∉ ipText ip := by
  obtain ⟨a, b, c, d⟩ := ip
  have colon : ∀ number, ':' ∉ digits number := fun number => not_mem_digits number rfl
  simp [ipText, colon]

/-- The text of a session names its flow. -/
theorem session_id_injective {left right : SessionFlow}
    (same : sessionId left = sessionId right) : left = right := by
  obtain ⟨port, ip, peer⟩ := left
  obtain ⟨port', ip', peer'⟩ := right
  have dash : ∀ number, '-' ∉ digits number := fun number => not_mem_digits number rfl
  obtain ⟨samePort, rest⟩ := separated (dash _) (dash _) same
  obtain ⟨sameIp, samePeer⟩ := separated (colon_not_mem_ip _) (colon_not_mem_ip _) rest
  have equalPort : port = port' := UInt16.toNat_inj.mp (digits_injective samePort)
  have equalIp : ip = ip' := ip_text_injective sameIp
  have equalPeer : peer = peer' := UInt16.toNat_inj.mp (digits_injective samePeer)
  rw [equalPort, equalIp, equalPeer]

/- What the rest of the proof knows of a main loop: a Packet is routed, and a Stop
   takes the entry out and leaves queue and workers alone. -/
structure Routes [DecidableEq Key] (keyOf : Flow → Key)
    (handle : Pool Flow Key Item → PoolMessage Flow Key Item → Pool Flow Key Item) : Prop where
  packet : ∀ pool flow item, handle pool (.Packet flow item) = route keyOf flow item pool
  stopQueue : ∀ pool key sentBy, (handle pool (.Stop key sentBy)).queue = pool.queue
  stopWorkers : ∀ pool key sentBy, (handle pool (.Stop key sentBy)).workers = pool.workers
  stopEntries : ∀ pool key sentBy,
    (handle pool (.Stop key sentBy)).entries = Function.update pool.entries key none

theorem session_routes : Routes sessionId (@NewSessionPool.handle Item) :=
  ⟨fun _ _ _ => rfl, fun _ _ _ => rfl, fun _ _ _ => rfl, fun _ _ _ => rfl⟩

theorem peer_connection_routes : Routes id (@PeerConnectionPool.handle Item) :=
  ⟨fun _ _ _ => rfl, fun _ _ _ => rfl, fun _ _ _ => rfl, fun _ _ _ => rfl⟩

theorem at_inj {pool : Pool Flow Key Item} {worker : Nat} {flow flow' : Flow}
    {stage stage' : Stage} (left : At pool worker flow stage) (right : At pool worker flow' stage') :
    flow = flow' ∧ stage = stage' := by
  obtain ⟨found, listed, rfl, rfl⟩ := left
  obtain ⟨found', listed', rfl, rfl⟩ := right
  have same : found = found' := Option.some.inj (listed.symm.trans listed')
  exact ⟨by rw [same], by rw [same]⟩

theorem at_congr {pool after : Pool Flow Key Item} (same : after.workers = pool.workers)
    {worker : Nat} {flow : Flow} {stage : Stage} :
    At after worker flow stage ↔ At pool worker flow stage := by
  simp only [At, same]

theorem at_set_stage {pool : Pool Flow Key Item} {ended worker : Nat} {flow : Flow}
    {stage reached : Stage} (moved : At (pool.setStage ended reached) worker flow stage) :
    (worker ≠ ended ∧ At pool worker flow stage) ∨
      (worker = ended ∧ stage = reached ∧ ∃ before, At pool worker flow before) := by
  obtain ⟨found, listed, rfl, rfl⟩ := moved
  simp only [Pool.setStage, List.getElem?_modify] at listed
  by_cases same : ended = worker
  · right
    subst same
    cases old : pool.workers[ended]? with
    | none => simp [old] at listed
    | some before =>
      simp only [old, if_true, Option.map_eq_map, Option.map_some, Option.some.injEq] at listed
      subst listed
      exact ⟨rfl, rfl, before.stage, before, old, rfl, rfl⟩
  · left
    simp only [if_neg same, id_map'] at listed
    exact ⟨fun equal => same equal.symm, found, by simpa using listed, rfl, rfl⟩

theorem at_set_stage_same {pool : Pool Flow Key Item} {worker : Nat} {flow : Flow}
    {before reached : Stage} (placed : At pool worker flow before) :
    At (pool.setStage worker reached) worker flow reached := by
  obtain ⟨found, listed, rfl, rfl⟩ := placed
  exact ⟨{ found with stage := reached }, by simp [Pool.setStage, listed], rfl, rfl⟩

theorem at_set_stage_other {pool : Pool Flow Key Item} {ended worker : Nat} {flow : Flow}
    {stage reached : Stage} (different : worker ≠ ended) (placed : At pool worker flow stage) :
    At (pool.setStage ended reached) worker flow stage := by
  obtain ⟨found, listed, rfl, rfl⟩ := placed
  refine ⟨found, ?_, rfl, rfl⟩
  simp only [Pool.setStage, List.getElem?_modify, if_neg (Ne.symm different), listed]
  rfl

theorem set_stage_keeps {pool : Pool Flow Key Item} (ended : Nat) (reached : Stage) {worker : Nat}
    {flow : Flow} {stage : Stage} (placed : At pool worker flow stage) :
    ∃ after, At (pool.setStage ended reached) worker flow after := by
  by_cases same : worker = ended
  · subst same
    exact ⟨reached, at_set_stage_same placed⟩
  · exact ⟨stage, at_set_stage_other same placed⟩

theorem at_create [DecidableEq Key] {keyOf : Flow → Key} {created flow : Flow} {item : Item}
    {pool : Pool Flow Key Item} {worker : Nat} {stage : Stage}
    (placed : At (create keyOf created item pool) worker flow stage) :
    At pool worker flow stage ∨
      (worker = pool.workers.length ∧ flow = created ∧ stage = .running) := by
  obtain ⟨found, listed, rfl, rfl⟩ := placed
  rcases Nat.lt_trichotomy worker pool.workers.length with older | new | beyond
  · left
    rw [create, List.getElem?_append_left older] at listed
    exact ⟨found, listed, rfl, rfl⟩
  · right
    subst new
    simp only [create, List.getElem?_concat_length, Option.some.injEq] at listed
    subst listed
    exact ⟨rfl, rfl, rfl⟩
  · rw [create, List.getElem?_eq_none (by simp only [List.length_append, List.length_singleton]; omega)]
      at listed
    cases listed

theorem at_push {pool : Pool Flow Key Item} {receiver worker : Nat} {item : Item} {flow : Flow}
    {stage : Stage} : At (pool.push receiver item) worker flow stage ↔ At pool worker flow stage := by
  simp only [At, Pool.push, List.getElem?_modify]
  cases pool.workers[worker]? with
  | none => simp
  | some found =>
    by_cases same : receiver = worker <;> simp [same]

theorem send_running {pool : Pool Flow Key Item} {worker : Nat} {flow : Flow} (item : Item)
    (running : At pool worker flow .running) :
    send worker item pool = some (pool.push worker item) := by
  obtain ⟨found, listed, _, isRunning⟩ := running
  simp only [send, listed, isRunning]

@[simp] theorem create_entry [DecidableEq Key] (keyOf : Flow → Key) (flow : Flow) (item : Item)
    (pool : Pool Flow Key Item) :
    (create keyOf flow item pool).entries (keyOf flow) = some pool.workers.length :=
  Function.update_self _ _ _

theorem create_entry_other [DecidableEq Key] {keyOf : Flow → Key} {flow : Flow} {item : Item}
    {pool : Pool Flow Key Item} {key : Key} (different : key ≠ keyOf flow) :
    (create keyOf flow item pool).entries key = pool.entries key :=
  Function.update_of_ne different _ _

def PoolMessage.sender : PoolMessage Flow Key Item → Option Nat
  | .Packet _ _ => none
  | .Stop _ sentBy => some sentBy

/- What an undisturbed pool keeps: a worker that has not been stopped, or whose Stop
   is still queued, is the one its flow's entry names. -/
structure Registered (keyOf : Flow → Key) (pool : Pool Flow Key Item) : Prop where
  created : ∀ key worker, pool.entries key = some worker →
    ∃ flow stage, At pool worker flow stage ∧ keyOf flow = key
  present : ∀ worker flow stage, At pool worker flow stage →
    stage ≠ .stopped ∨ worker ∈ pool.queue.filterMap PoolMessage.sender →
      pool.entries (keyOf flow) = some worker
  reported : ∀ key sentBy, PoolMessage.Stop key sentBy ∈ pool.queue →
    ∃ flow, At pool sentBy flow .stopped ∧ keyOf flow = key
  once : (pool.queue.filterMap PoolMessage.sender).Nodup

theorem idle_registered (keyOf : Flow → Key) :
    Registered keyOf (Pool.idle : Pool Flow Key Item) := by
  constructor
  · intro key worker named
    cases named
  · intro worker flow stage placed
    obtain ⟨found, listed, _⟩ := placed
    cases listed
  · intro key sentBy queued
    cases queued
  · exact List.nodup_nil

theorem sender_queued {pool : Pool Flow Key Item} {keyOf : Flow → Key} (held : Registered keyOf pool)
    {worker : Nat} (queued : worker ∈ pool.queue.filterMap PoolMessage.sender) :
    ∃ flow, At pool worker flow .stopped := by
  obtain ⟨message, listed, sent⟩ := List.mem_filterMap.mp queued
  cases message with
  | Packet flow item => cases sent
  | Stop key sentBy =>
    cases sent
    obtain ⟨flow, stopped, _⟩ := held.reported key worker listed
    exact ⟨flow, stopped⟩

theorem arrive_registered {keyOf : Flow → Key} {pool : Pool Flow Key Item}
    (held : Registered keyOf pool) (flow : Flow) (item : Item) :
    Registered keyOf { pool with queue := pool.queue ++ [.Packet flow item] } := by
  have senders : (pool.queue ++ [PoolMessage.Packet flow item]).filterMap PoolMessage.sender =
      pool.queue.filterMap PoolMessage.sender := by
    simp [PoolMessage.sender]
  constructor
  · exact held.created
  · intro worker other stage placed pending
    simp only [senders] at pending
    exact held.present worker other stage placed pending
  · intro key sentBy queued
    rcases List.mem_append.mp queued with old | new
    · exact held.reported key sentBy old
    · cases List.mem_singleton.mp new
  · simpa only [senders] using held.once

theorem create_registered [DecidableEq Key] {keyOf : Flow → Key} {pool : Pool Flow Key Item}
    (held : Registered keyOf pool) {flow : Flow} (item : Item)
    (absent : pool.entries (keyOf flow) = none) :
    Registered keyOf (create keyOf flow item pool) := by
  have older : ∀ {worker other stage}, At pool worker other stage →
      At (create keyOf flow item pool) worker other stage := by
    intro worker other stage placed
    obtain ⟨found, listed, same⟩ := placed
    exact ⟨found, List.getElem?_append_left (List.getElem?_eq_some_iff.mp listed).1 ▸ listed, same⟩
  constructor
  · intro key worker named
    by_cases same : key = keyOf flow
    · subst same
      rw [create_entry] at named
      cases named
      exact ⟨flow, .running, ⟨_, List.getElem?_concat_length, rfl, rfl⟩, rfl⟩
    · rw [create_entry_other same] at named
      obtain ⟨other, stage, placed, sameKey⟩ := held.created key worker named
      exact ⟨other, stage, older placed, sameKey⟩
  · intro worker other stage placed pending
    rcases at_create placed with old | ⟨rfl, rfl, rfl⟩
    · have named := held.present worker other stage old pending
      have apart : keyOf other ≠ keyOf flow := by
        intro same
        rw [same, absent] at named
        cases named
      rw [create_entry_other apart]
      exact named
    · exact create_entry keyOf _ item pool
  · intro key sentBy queued
    obtain ⟨other, stopped, sameKey⟩ := held.reported key sentBy queued
    exact ⟨other, older stopped, sameKey⟩
  · exact held.once

theorem push_registered {keyOf : Flow → Key} {pool : Pool Flow Key Item}
    (held : Registered keyOf pool) (receiver : Nat) (item : Item) :
    Registered keyOf (pool.push receiver item) := by
  constructor
  · intro key worker named
    obtain ⟨flow, stage, placed, sameKey⟩ := held.created key worker named
    exact ⟨flow, stage, at_push.mpr placed, sameKey⟩
  · intro worker flow stage placed pending
    exact held.present worker flow stage (at_push.mp placed) pending
  · intro key sentBy queued
    obtain ⟨flow, stopped, sameKey⟩ := held.reported key sentBy queued
    exact ⟨flow, at_push.mpr stopped, sameKey⟩
  · exact held.once

/-- Taking a Packet off the queue. -/
theorem taken_registered {keyOf : Flow → Key} {pool : Pool Flow Key Item}
    (held : Registered keyOf pool) {flow : Flow} {item : Item}
    {rest : List (PoolMessage Flow Key Item)} (queued : pool.queue = .Packet flow item :: rest) :
    Registered keyOf { pool with queue := rest } := by
  have senders : pool.queue.filterMap PoolMessage.sender = rest.filterMap PoolMessage.sender := by
    rw [queued]
    rfl
  constructor
  · exact held.created
  · intro worker other stage placed pending
    rw [← senders] at pending
    exact held.present worker other stage placed pending
  · intro key sentBy listed
    exact held.reported key sentBy (by rw [queued]; exact List.mem_cons_of_mem _ listed)
  · exact senders ▸ held.once

theorem route_registered [DecidableEq Key] {keyOf : Flow → Key} {pool : Pool Flow Key Item}
    (held : Registered keyOf pool) {flow : Flow} (item : Item)
    (alive : ∀ worker, pool.entries (keyOf flow) = some worker → At pool worker flow .running) :
    Registered keyOf (route keyOf flow item pool) := by
  unfold route
  cases named : pool.entries (keyOf flow) with
  | none => exact create_registered held item named
  | some worker =>
    simp only [send_running item (alive worker named)]
    exact push_registered held worker item

/-- A Stop takes out the entry of the worker that sent it. -/
theorem stop_entry {keyOf : Flow → Key} {pool : Pool Flow Key Item}
    (held : Registered keyOf pool) {key : Key} {sentBy : Nat}
    (queued : PoolMessage.Stop key sentBy ∈ pool.queue) : pool.entries key = some sentBy := by
  obtain ⟨flow, stopped, rfl⟩ := held.reported key sentBy queued
  exact held.present sentBy flow .stopped stopped
    (Or.inr (List.mem_filterMap.mpr ⟨_, queued, rfl⟩))

theorem stop_registered [DecidableEq Key] {keyOf : Flow → Key} {pool after : Pool Flow Key Item}
    (held : Registered keyOf pool) {key : Key} {sentBy : Nat}
    {rest : List (PoolMessage Flow Key Item)} (queued : pool.queue = .Stop key sentBy :: rest)
    (left : after.queue = rest) (same : after.workers = pool.workers)
    (removed : after.entries = Function.update pool.entries key none) :
    Registered keyOf after := by
  have head : PoolMessage.Stop key sentBy ∈ pool.queue := by
    rw [queued]
    exact List.mem_cons_self
  have senders : pool.queue.filterMap PoolMessage.sender =
      sentBy :: rest.filterMap PoolMessage.sender := by
    rw [queued]
    rfl
  have gone : sentBy ∉ rest.filterMap PoolMessage.sender := by
    have once := held.once
    rw [senders] at once
    exact (List.nodup_cons.mp once).1
  constructor
  · intro other worker named
    have apart : other ≠ key := by
      intro equal
      rw [removed, equal, Function.update_self] at named
      cases named
    rw [removed, Function.update_of_ne apart] at named
    obtain ⟨flow, stage, placed, sameKey⟩ := held.created other worker named
    exact ⟨flow, stage, (at_congr same).mpr placed, sameKey⟩
  · intro worker flow stage placed pending
    have before := (at_congr same).mp placed
    rw [left] at pending
    have wasPending : stage ≠ .stopped ∨ worker ∈ pool.queue.filterMap PoolMessage.sender := by
      rcases pending with active | waiting
      · exact Or.inl active
      · rw [senders]
        exact Or.inr (List.mem_cons_of_mem _ waiting)
    have named := held.present worker flow stage before wasPending
    have apart : keyOf flow ≠ key := by
      intro equal
      rw [equal, stop_entry held head] at named
      cases named
      obtain ⟨_, stopped, _⟩ := held.reported key sentBy head
      rcases pending with active | waiting
      · exact active (at_inj before stopped).2
      · exact gone waiting
    rw [removed, Function.update_of_ne apart]
    exact named
  · intro other worker listed
    rw [left] at listed
    obtain ⟨flow, stopped, sameKey⟩ :=
      held.reported other worker (by rw [queued]; exact List.mem_cons_of_mem _ listed)
    exact ⟨flow, (at_congr same).mpr stopped, sameKey⟩
  · have once := held.once
    rw [senders] at once
    rw [left]
    exact (List.nodup_cons.mp once).2

theorem drop_registered {keyOf : Flow → Key} {pool : Pool Flow Key Item}
    (held : Registered keyOf pool) {ended : Nat} {flow : Flow} (running : At pool ended flow .running) :
    Registered keyOf (pool.setStage ended .dropped) := by
  constructor
  · intro key worker named
    obtain ⟨other, stage, placed, sameKey⟩ := held.created key worker named
    obtain ⟨after, moved⟩ := set_stage_keeps ended .dropped placed
    exact ⟨other, after, moved, sameKey⟩
  · intro worker other stage placed pending
    rcases at_set_stage placed with ⟨_, before⟩ | ⟨rfl, rfl, earlier, before⟩
    · exact held.present worker other stage before pending
    · rw [(at_inj before running).1]
      exact held.present worker flow .running running (Or.inl (by decide))
  · intro key sentBy queued
    obtain ⟨other, stopped, sameKey⟩ := held.reported key sentBy queued
    have different : sentBy ≠ ended := by
      intro equal
      subst equal
      cases (at_inj stopped running).2
    exact ⟨other, at_set_stage_other different stopped, sameKey⟩
  · exact held.once

theorem report_registered {keyOf : Flow → Key} {pool : Pool Flow Key Item}
    (held : Registered keyOf pool) {ended : Nat} {flow : Flow} (dropped : At pool ended flow .dropped) :
    Registered keyOf { pool.setStage ended .stopped with
      queue := pool.queue ++ [.Stop (keyOf flow) ended] } := by
  have senders : (pool.queue ++ [PoolMessage.Stop (keyOf flow) ended]).filterMap
      PoolMessage.sender = pool.queue.filterMap PoolMessage.sender ++ [ended] := by
    simp [PoolMessage.sender]
  have silent : ended ∉ pool.queue.filterMap PoolMessage.sender := by
    intro waiting
    obtain ⟨_, stopped⟩ := sender_queued held waiting
    cases (at_inj stopped dropped).2
  have named := held.present ended flow .dropped dropped (Or.inl (by decide))
  constructor
  · intro key worker entry
    obtain ⟨other, stage, placed, sameKey⟩ := held.created key worker entry
    obtain ⟨after, moved⟩ := set_stage_keeps ended .stopped placed
    exact ⟨other, after, moved, sameKey⟩
  · intro worker other stage placed pending
    rcases at_set_stage placed with ⟨different, before⟩ | ⟨rfl, rfl, earlier, before⟩
    · apply held.present worker other stage before
      rcases pending with active | waiting
      · exact Or.inl active
      · rw [senders] at waiting
        rcases List.mem_append.mp waiting with old | new
        · exact Or.inr old
        · exact absurd (List.mem_singleton.mp new) different
    · rw [(at_inj before dropped).1]
      exact named
  · intro key sentBy queued
    rcases List.mem_append.mp queued with old | new
    · obtain ⟨other, stopped, sameKey⟩ := held.reported key sentBy old
      have different : sentBy ≠ ended := by
        intro equal
        subst equal
        cases (at_inj stopped dropped).2
      exact ⟨other, at_set_stage_other different stopped, sameKey⟩
    · cases List.mem_singleton.mp new
      exact ⟨flow, at_set_stage_same dropped, rfl⟩
  · simp only [senders]
    exact List.nodup_append.mpr ⟨held.once, by simp, by
      intro left leftIn right rightIn equal
      rw [List.mem_singleton.mp rightIn] at equal
      exact silent (equal ▸ leftIn)⟩

/-- What one event does. -/
theorem step_cases {keyOf : Flow → Key}
    {handle : Pool Flow Key Item → PoolMessage Flow Key Item → Pool Flow Key Item}
    {pool after : Pool Flow Key Item} {event : Event Flow Item}
    (stepped : poolStep keyOf handle pool event = some after) :
    (∃ flow item, event = .arrive flow item ∧
        after = { pool with queue := pool.queue ++ [.Packet flow item] }) ∨
      (∃ message rest, event = .receive ∧ pool.queue = message :: rest ∧
        after = handle { pool with queue := rest } message) ∨
      (∃ worker flow, event = .drop worker ∧ At pool worker flow .running ∧
        after = pool.setStage worker .dropped) ∨
      ∃ worker flow, event = .stop worker ∧ At pool worker flow .dropped ∧
        after = { pool.setStage worker .stopped with
          queue := pool.queue ++ [.Stop (keyOf flow) worker] } := by
  cases event with
  | arrive flow item => exact Or.inl ⟨flow, item, rfl, (Option.some.inj stepped).symm⟩
  | receive =>
    right; left
    cases queued : pool.queue with
    | nil => simp [poolStep, queued] at stepped
    | cons message rest =>
      simp only [poolStep, queued, Option.some.injEq] at stepped
      exact ⟨message, rest, rfl, rfl, stepped.symm⟩
  | drop worker =>
    right; right; left
    simp only [poolStep] at stepped
    split at stepped
    · rename_i found listed
      split at stepped
      · rename_i running
        exact ⟨worker, found.flow, rfl, ⟨found, listed, rfl, running⟩,
          (Option.some.inj stepped).symm⟩
      · cases stepped
    · cases stepped
  | stop worker =>
    right; right; right
    simp only [poolStep] at stepped
    split at stepped
    · rename_i found listed
      split at stepped
      · rename_i dropped
        exact ⟨worker, found.flow, rfl, ⟨found, listed, rfl, dropped⟩,
          (Option.some.inj stepped).symm⟩
      · cases stepped
    · cases stepped

theorem step_registered [DecidableEq Key] {keyOf : Flow → Key}
    {handle : Pool Flow Key Item → PoolMessage Flow Key Item → Pool Flow Key Item}
    (routes : Routes keyOf handle) {pool after : Pool Flow Key Item} {event : Event Flow Item}
    (held : Registered keyOf pool) (allowed : NoDeadEntry keyOf pool event)
    (stepped : poolStep keyOf handle pool event = some after) : Registered keyOf after := by
  rcases step_cases stepped with ⟨flow, item, _, rfl⟩ | ⟨message, rest, isReceive, queued, rfl⟩ |
    ⟨worker, flow, _, running, rfl⟩ | ⟨worker, flow, _, dropped, rfl⟩
  · exact arrive_registered held flow item
  · cases message with
    | Packet flow item =>
      rw [routes.packet]
      apply route_registered (taken_registered held queued)
      intro worker named
      exact allowed isReceive flow item rest worker queued named
    | Stop key sentBy =>
      exact stop_registered held queued (routes.stopQueue _ _ _) (routes.stopWorkers _ _ _)
        (routes.stopEntries _ _ _)
  · exact drop_registered held running
  · exact report_registered held dropped

theorem one_worker_of_registered {keyOf : Flow → Key} {pool : Pool Flow Key Item}
    (injective : ∀ left right, keyOf left = keyOf right → left = right)
    (held : Registered keyOf pool) : OneWorker keyOf pool := by
  constructor
  · intro flow first second firstRuns secondRuns
    have namesFirst := held.present first flow .running firstRuns (Or.inl (by decide))
    have namesSecond := held.present second flow .running secondRuns (Or.inl (by decide))
    exact Option.some.inj (namesFirst.symm.trans namesSecond)
  · intro flow worker runs
    exact held.present worker flow .running runs (Or.inl (by decide))
  · intro flow worker named
    obtain ⟨other, stage, placed, sameKey⟩ := held.created _ worker named
    rw [injective other flow sameKey] at placed
    exact ⟨stage, placed⟩
  · intro key sentBy worker rest queued named
    have head : PoolMessage.Stop key sentBy ∈ pool.queue := by
      rw [queued]
      exact List.mem_cons_self
    rw [stop_entry held head] at named
    cases named
    exact Nat.le_refl _

theorem run_one_worker [DecidableEq Key] {keyOf : Flow → Key}
    {handle : Pool Flow Key Item → PoolMessage Flow Key Item → Pool Flow Key Item}
    (routes : Routes keyOf handle)
    (injective : ∀ left right, keyOf left = keyOf right → left = right)
    {last : Pool Flow Key Item}
    (run : Run (poolStep keyOf handle) (NoDeadEntry keyOf) Pool.idle last) :
    OneWorker keyOf last := by
  apply one_worker_of_registered injective
  apply run_keeps (Registered keyOf) (idle_registered keyOf) _ run
  intro pool event after held allowed stepped
  exact step_registered routes held allowed stepped

/-- Of both pools, in every run in which no packet meets the entry of a worker that
    has dropped its receiver. -/
theorem one_worker_per_flow :
    (∀ last : NewSessionPool Item,
      Run NewSessionPool.step (NoDeadEntry sessionId) Pool.idle last → OneWorker sessionId last) ∧
    ∀ last : PeerConnectionPool Item,
      Run PeerConnectionPool.step (NoDeadEntry id) Pool.idle last → OneWorker id last := by
  constructor
  · intro last run
    exact run_one_worker session_routes (fun _ _ => session_id_injective) run
  · intro last run
    exact run_one_worker peer_connection_routes (fun _ _ same => same) run

/-- The next message is a Stop or a packet of a flow without an entry. -/
def newFlow (keyOf : Flow → Key) (pool : Pool Flow Key Item) (event : Event Flow Item) : Bool :=
  match event, pool.queue with
  | .receive, .Packet flow _ :: _ => (pool.entries (keyOf flow)).isNone
  | _, _ => true

theorem new_flow_sound (keyOf : Flow → Key) (pool : Pool Flow Key Item) (event : Event Flow Item)
    (passed : newFlow keyOf pool event = true) : NoDeadEntry keyOf pool event := by
  intro isReceive flow item rest worker queued named
  subst isReceive
  simp [newFlow, queued, named] at passed

def phone : SessionFlow := ⟨10000, (192, 0, 2, 1), 5004⟩

def browser : SocketAddr := .V4 0xC0000201 5004

/-- One worker ends and is forgotten before the next packet. -/
def inTurn (flow : Flow) : List (Event Flow Nat) :=
  [.arrive flow 0, .receive, .drop 0, .stop 0, .receive, .arrive flow 1, .receive]

/-- A worker drops its receiver, a packet arrives and starts a second one, and then
    the Stop of the first is queued and taken. -/
def overtaken (flow : Flow) : List (Event Flow Nat) :=
  [.arrive flow 0, .receive, .drop 0, .arrive flow 1, .receive, .stop 0, .receive]

theorem one_worker_in_turn :
    (∃ last : NewSessionPool Nat,
      runWhere NewSessionPool.step (newFlow sessionId) Pool.idle (inTurn phone) = some last ∧
      At last 1 phone .running ∧ OneWorker sessionId last) ∧
    ∃ last : PeerConnectionPool Nat,
      runWhere PeerConnectionPool.step (newFlow id) Pool.idle (inTurn browser) = some last ∧
      At last 1 browser .running ∧ OneWorker id last := by
  constructor
  · refine ⟨_, rfl, ⟨_, rfl, rfl, rfl⟩, ?_⟩
    exact one_worker_per_flow.1 _ (run_of_runWhere (new_flow_sound sessionId) (inTurn phone) rfl)
  · refine ⟨_, rfl, ⟨_, rfl, rfl, rfl⟩, ?_⟩
    exact one_worker_per_flow.2 _ (run_of_runWhere (new_flow_sound id) (inTurn browser) rfl)

/-- The Stop of the first worker takes out the entry of the second, which still runs. -/
theorem late_stop_removes_successor :
    (¬ ∀ last : NewSessionPool Nat, Reaches NewSessionPool.step Pool.idle last →
      OneWorker sessionId last) ∧
    ¬ ∀ last : PeerConnectionPool Nat, Reaches PeerConnectionPool.step Pool.idle last →
      OneWorker id last := by
  constructor
  · intro always
    have ran : ∃ last : NewSessionPool Nat,
        runAll NewSessionPool.step Pool.idle (overtaken phone) = some last ∧
        last.entries (sessionId phone) = none ∧ At last 1 phone .running :=
      ⟨_, rfl, rfl, _, rfl, rfl, rfl⟩
    obtain ⟨last, ran, gone, runs⟩ := ran
    have named := (always last (reaches_of_runAll _ ran)).entered phone 1 runs
    rw [gone] at named
    cases named
  · intro always
    have ran : ∃ last : PeerConnectionPool Nat,
        runAll PeerConnectionPool.step Pool.idle (overtaken browser) = some last ∧
        last.entries browser = none ∧ At last 1 browser .running :=
      ⟨_, rfl, rfl, _, rfl, rfl, rfl⟩
    obtain ⟨last, ran, gone, runs⟩ := ran
    have named := (always last (reaches_of_runAll _ ran)).entered browser 1 runs
    rw [id, gone] at named
    cases named

end WorkerPools
