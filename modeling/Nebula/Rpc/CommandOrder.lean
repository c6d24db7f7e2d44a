import Nebula.Rpc.StreamDelivery

/- The way of a command to the switchboard: send_msg posts it, stream_new_message
   spawns a task that appends it to the switchboard's stream and answers, the
   RpcServer of the switchboard's group passes it on, and the loop of Server::run
   spawns a task that acknowledges it and calls process_rpc. What serde makes of a
   message is a parameter, and so is what a NewInboundChannel says of `existing`. -/
namespace CommandOrder
open Runs Rpc StreamServer StreamDelivery
variable (encode : RpcMessage → String) (decode : String → Option RpcMessage)
  (existing : String → Bool)

/-- A message and which it was of all that were sent. -/
structure Sent where
  number : Nat
  sender : Nat
  rpcMsg : RpcMessage
  deriving DecidableEq, Repr

def Before (earlier later : Sent) : Prop :=
  earlier.number < later.number ∧ earlier.sender = later.sender ∧
    earlier.rpcMsg.id = later.rpcMsg.id

instance (earlier later : Sent) : Decidable (Before earlier later) :=
  inferInstanceAs (Decidable (_ ∧ _))

/-- A task of the loop: before and after its ack, in process_rpc, and past the point
    where the new channel has its call context. -/
inductive Stage where
  | spawned
  | acked
  | started
  | created
  deriving DecidableEq, Repr

structure Task where
  entry : RpcEntry
  rpcMsg : RpcMessage
  stage : Stage
  deriving DecidableEq, Repr

inductive Happening where
  | started (entryId : Nat)
  | created (entryId : Nat)
  deriving DecidableEq, Repr

/-- The n-th entry of the stream is the n-th message appended. -/
structure Switchboard where
  issued : List Sent
  requests : List Sent
  appending : List Sent
  appended : List Sent
  redis : World
  tasks : List Task
  log : List Happening

def opensChannel (rpcMsg : RpcMessage) : Bool :=
  rpcMsg.method = .NewInboundChannel && !existing rpcMsg.params

def endsChannel (rpcMsg : RpcMessage) : Bool :=
  rpcMsg.method = .Cancel || rpcMsg.method = .Hangup

def Switchboard.setStage (world : Switchboard) (task : Nat) (stage : Stage) : Switchboard :=
  { world with tasks := world.tasks.modify task fun found => { found with stage := stage } }

def nextSent (sender : Nat) (rpcMsg : RpcMessage) (world : Switchboard) : Sent :=
  ⟨world.issued.length, sender, rpcMsg⟩

/-- SwitchboardRpcClient::send_msg posts the message. -/
def sendMsg (sender : Nat) (rpcMsg : RpcMessage) (world : Switchboard) : Switchboard :=
  { world with
    issued := world.issued ++ [nextSent sender rpcMsg world]
    requests := world.requests ++ [nextSent sender rpcMsg world] }

/-- The handler answers Ok once it has spawned the task. -/
def streamNewMessage (sent : Sent) (world : Switchboard) : Switchboard :=
  { world with requests := world.requests.erase sent, appending := world.appending ++ [sent] }

/-- RpcClient::send_to_stream in the spawned task. -/
def sendToStream (sent : Sent) (world : Switchboard) : Switchboard :=
  { world with
    appending := world.appending.erase sent
    appended := world.appended ++ [sent]
    redis := xadd ["message", encode sent.rpcMsg] world.redis }

/-- The loop of Server::run takes the next message of the receiver. -/
def receive (world : Switchboard) : Option Switchboard :=
  match world.redis.server.sent[world.tasks.length]? with
  | some (entry, rpcMsg) => some { world with tasks := world.tasks ++ [⟨entry, rpcMsg, .spawned⟩] }
  | none => none

inductive Event where
  | send (sender : Nat) (rpcMsg : RpcMessage)
  | handle (sent : Sent)
  | append (sent : Sent)
  | read
  | serve
  | timeout
  | create
  | receive
  | ack (task : Nat)
  | process (task : Nat)
  | newInbound (task : Nat)

/-- A sender posts a message for a channel once its previous post for that channel
    has been answered. -/
def step : Machine Switchboard Event := fun world event =>
  let reader (event : StreamServer.Event) : Option Switchboard :=
    (StreamServer.step decode world.redis event).map fun redis => { world with redis := redis }
  match event with
  | .send sender rpcMsg =>
    if world.requests.any fun sent => sent.sender = sender && sent.rpcMsg.id = rpcMsg.id then none
    else some (sendMsg sender rpcMsg world)
  | .handle sent => if sent ∈ world.requests then some (streamNewMessage sent world) else none
  | .append sent => if sent ∈ world.appending then some (sendToStream encode sent world) else none
  | .read => reader .read
  | .serve => reader .serve
  | .timeout => reader .timeout
  | .create => reader .create
  | .receive => receive world
  | .ack task =>
    match world.tasks[task]? with
    | some ⟨entry, _, .spawned⟩ =>
      some { world.setStage task .acked with redis := entry.ack world.redis }
    | _ => none
  | .process task =>
    match world.tasks[task]? with
    | some ⟨entry, _, .acked⟩ =>
      some { world.setStage task .started with log := world.log ++ [.started entry.entryId] }
    | _ => none
  | .newInbound task =>
    match world.tasks[task]? with
    | some ⟨entry, rpcMsg, .started⟩ =>
      if opensChannel existing rpcMsg then
        some { world.setStage task .created with log := world.log ++ [.created entry.entryId] }
      else none
    | _ => none

/-- The switchboard is up: its group is there and nothing has been sent to it. -/
def listening (streamName groupName : String) : Switchboard :=
  { issued := [], requests := [], appending := [], appended := [], tasks := [], log := []
    redis := ⟨[], some 0, [], ⟨streamName, groupName, .«$», .ready, []⟩⟩ }

/-- Whatever process_rpc has started on, it has started before on all that the sender
    sent earlier for the channel; and when that was the channel's NewInboundChannel
    and this ends the channel, the channel had been made. -/
def InOrder (world : Switchboard) : Prop :=
  ∀ before after entryId later earlier,
    world.log = before ++ .started entryId :: after → world.appended[entryId]? = some later →
    earlier ∈ world.issued → Before earlier later →
    ∃ earlierId, world.appended[earlierId]? = some earlier ∧ .started earlierId ∈ before ∧
      (opensChannel existing earlier.rpcMsg = true → endsChannel later.rpcMsg = true →
        .created earlierId ∈ before)

/-- No spawned task overtakes: neither an append one for an earlier message of the
    channel, nor a call of process_rpc one that has been spawned for an earlier message
    (for the end of a channel: one that still has to make it). -/
def NoOvertaking : Guard Switchboard Event := fun world event =>
  match event with
  | .append sent => ∀ other ∈ world.appending, ¬ Before other sent
  | .process task => ∀ (later earlier : Sent) (other : Nat) (found : Task),
      world.appended[task]? = some later → world.appended[other]? = some earlier →
      Before earlier later → world.tasks[other]? = some found →
        (found.stage = .started ∨ found.stage = .created) ∧
        (opensChannel existing earlier.rpcMsg = true → endsChannel later.rpcMsg = true →
          found.stage = .created)
  | _ => True

variable {encode decode existing}

/-- serde reads back what it writes. -/
def RoundTrip (encode : RpcMessage → String) (decode : String → Option RpcMessage)
    (sents : List Sent) : Prop :=
  ∀ sent ∈ sents, decode (encode sent.rpcMsg) = some sent.rpcMsg

def entryOf (encode : RpcMessage → String) (sent : Sent) : Fields := ["message", encode sent.rpcMsg]

theorem entry_message {sent : Sent} (readBack : decode (encode sent.rpcMsg) = some sent.rpcMsg)
    (entryId : Nat) :
    messageOf decode (entryOf encode sent, entryId) = some (entryId, sent.rpcMsg) := by
  simp [messageOf, entryOf, messageText, readBack]

theorem entry_well_formed {sent : Sent} (readBack : decode (encode sent.rpcMsg) = some sent.rpcMsg)
    (entryId : Nat) : illFormed decode (entryOf encode sent, entryId) = false := by
  simp [illFormed, entryOf, messageText, readBack]

/-- The messages of the stream are those appended, numbered in turn. -/
theorem stream_messages (appended : List Sent) (readBack : RoundTrip encode decode appended) :
    (entriesFrom 0 (appended.map (entryOf encode))).filterMap (messageOf decode) =
      appended.zipIdx.map fun numbered => (numbered.2, numbered.1.rpcMsg) := by
  unfold entriesFrom
  rw [List.drop_zero]
  generalize 0 = start
  induction appended generalizing start with
  | nil => rfl
  | cons sent appended ih =>
    have head := entry_message (readBack sent List.mem_cons_self) start
    rw [List.map_cons, List.zipIdx_cons, List.filterMap_cons, head, List.zipIdx_cons, List.map_cons,
      ih fun other member => readBack other (List.mem_cons_of_mem _ member)]

theorem stream_well_formed {appended : List Sent} (readBack : RoundTrip encode decode appended)
    (start : Nat) :
    ∀ entry ∈ entriesFrom start (appended.map (entryOf encode)), illFormed decode entry = false := by
  intro entry member
  have listed : entry.1 ∈ appended.map (entryOf encode) :=
    List.fst_mem_of_mem_zipIdx (List.mem_of_mem_drop member)
  obtain ⟨sent, isSent, same⟩ := List.mem_map.mp listed
  have well := entry_well_formed (readBack sent isSent) entry.2
  rw [same] at well
  exact well

/- What a run keeps. Each message is with the sender, with a task that is to append
   it, or in the stream; an unanswered one is its sender's last for the channel; the
   stream is in order; and the n-th task is that of the n-th entry. -/
structure Piped (encode : RpcMessage → String) (decode : String → Option RpcMessage)
    (existing : String → Bool) (world : Switchboard) : Prop where
  kept : Kept decode 0 world.redis
  inGroup : grouped world.redis = true
  group : world.redis.group ≠ none
  entries : world.redis.stream = world.appended.map (entryOf encode)
  numbered : ∀ sent ∈ world.issued, sent.number < world.issued.length
  unique : world.issued.Nodup
  somewhere : (world.requests ++ (world.appending ++ world.appended)).Perm world.issued
  last : ∀ sent ∈ world.requests, ∀ later ∈ world.issued, ¬ Before sent later
  closed : ∀ later ∈ world.appended, ∀ earlier ∈ world.issued, Before earlier later →
    earlier ∈ world.appended
  sorted : ∀ (i j : Nat) (earlier later : Sent), world.appended[i]? = some earlier →
    world.appended[j]? = some later → Before earlier later → i < j
  spawned : ∀ (n : Nat) (task : Task), world.tasks[n]? = some task →
    world.redis.server.sent[n]? = some (task.entry, task.rpcMsg)
  logged : ∀ (n : Nat) (task : Task), world.tasks[n]? = some task →
    (task.stage = .started ∨ task.stage = .created → .started n ∈ world.log) ∧
    (task.stage = .created → .created n ∈ world.log)
  known : ∀ n, .started n ∈ world.log → n < world.appended.length
  inOrder : InOrder existing world

theorem listening_started {streamName groupName : String}
    (inGroup : grouped (listening streamName groupName).redis = true) :
    Started (listening streamName groupName).redis := by
  constructor
  · rfl
  · intro alone
    rw [inGroup] at alone
    cases alone
  · intro _ start here
    cases here
    exact ⟨Nat.le_refl _, rfl⟩
  · intro _ missing
    cases missing

theorem listening_piped (streamName : String) {groupName : String} (named : groupName ≠ "") :
    Piped encode decode existing (listening streamName groupName) := by
  have inGroup : grouped (listening streamName groupName).redis = true := by
    simpa [grouped, listening] using named
  constructor
  · exact ⟨started_placed (listening_started inGroup), Nat.le_refl _,
      by simp [delivered, unread, entriesFrom, listening]⟩
  · exact inGroup
  · simp [listening]
  · rfl
  · intro sent member
    cases member
  · exact List.nodup_nil
  · exact List.Perm.refl _
  · intro sent member
    cases member
  · intro later member
    cases member
  · intro i j earlier later found
    simp [listening] at found
  · intro n task found
    simp [listening] at found
  · intro n task found
    simp [listening] at found
  · intro n member
    cases member
  · intro before after entryId later earlier split
    simp [listening] at split

theorem appended_issued {world : Switchboard} (piped : Piped encode decode existing world)
    {sent : Sent} (member : sent ∈ world.appended) : sent ∈ world.issued :=
  piped.somewhere.mem_iff.mp (List.mem_append_right _ (List.mem_append_right _ member))

theorem everywhere_nodup {world : Switchboard} (piped : Piped encode decode existing world) :
    (world.requests ++ (world.appending ++ world.appended)).Nodup :=
  piped.somewhere.nodup_iff.mpr piped.unique

/-- What is delivered so far are the first messages of the stream, in turn. -/
theorem delivered_numbered {world : Switchboard} (piped : Piped encode decode existing world)
    (readBack : RoundTrip encode decode world.appended) {n : Nat} {entry : RpcEntry}
    {rpcMsg : RpcMessage} (found : world.redis.server.sent[n]? = some (entry, rpcMsg)) :
    entry.entryId = n ∧ ∃ sent, world.appended[n]? = some sent ∧ sent.rpcMsg = rpcMsg := by
  have passed : (delivered world.redis)[n]? = some (entry.entryId, rpcMsg) := by
    simp [delivered, found]
  have whole := piped.kept.inOrder
  rw [piped.entries, stream_messages _ readBack] at whole
  have numbered := congrArg (fun messages => messages[n]?) whole
  simp only [List.getElem?_append_left (List.getElem?_eq_some_iff.mp passed).1, passed,
    List.getElem?_map, List.getElem?_zipIdx] at numbered
  cases here : world.appended[n]? with
  | none => simp [here] at numbered
  | some sent =>
    simp only [here, Option.map_some, Nat.zero_add, Option.some.injEq, Prod.mk.injEq] at numbered
    exact ⟨numbered.1, sent, rfl, numbered.2.symm⟩

theorem task_entry {world : Switchboard} (piped : Piped encode decode existing world)
    (readBack : RoundTrip encode decode world.appended) {n : Nat} {task : Task}
    (found : world.tasks[n]? = some task) :
    task.entry.entryId = n ∧ ∃ sent, world.appended[n]? = some sent ∧ sent.rpcMsg = task.rpcMsg :=
  delivered_numbered piped readBack (piped.spawned n task found)

theorem send_piped {world : Switchboard} (piped : Piped encode decode existing world)
    (sender : Nat) (rpcMsg : RpcMessage)
    (answered : ∀ sent ∈ world.requests, ¬ (sent.sender = sender ∧ sent.rpcMsg.id = rpcMsg.id)) :
    Piped encode decode existing (sendMsg sender rpcMsg world) := by
  have fresh : nextSent sender rpcMsg world ∉ world.issued := by
    intro member
    exact absurd (piped.numbered _ member) (Nat.lt_irrefl _)
  have newest : ∀ other ∈ world.issued,
      ¬ Before (nextSent sender rpcMsg world) other := by
    intro other member before
    exact absurd (Nat.lt_trans before.1 (piped.numbered other member)) (Nat.lt_irrefl _)
  constructor
  · exact piped.kept
  · exact piped.inGroup
  · exact piped.group
  · exact piped.entries
  · intro sent member
    simp only [sendMsg, List.length_append, List.length_singleton]
    rcases List.mem_append.mp member with old | new
    · exact Nat.lt_succ_of_lt (piped.numbered sent old)
    · rw [List.mem_singleton.mp new]
      exact Nat.lt_succ_self _
  · simp only [sendMsg]
    rw [List.nodup_append]
    refine ⟨piped.unique, by simp, ?_⟩
    intro left leftIn right rightIn same
    rw [List.mem_singleton.mp rightIn] at same
    exact fresh (same ▸ leftIn)
  · simp only [sendMsg]
    have moved : (world.requests ++ [nextSent sender rpcMsg world] ++
        (world.appending ++ world.appended)).Perm
        (world.requests ++ (world.appending ++ world.appended) ++
          [nextSent sender rpcMsg world]) := by
      apply List.perm_iff_count.mpr
      intro other
      simp only [List.count_append]
      omega
    exact moved.trans (piped.somewhere.append_right _)
  · intro sent isRequest later isIssued before
    simp only [sendMsg, List.mem_append, List.mem_singleton] at isRequest isIssued
    rcases isRequest with oldRequest | rfl
    · rcases isIssued with oldLater | rfl
      · exact piped.last sent oldRequest later oldLater before
      · exact answered sent oldRequest before.2
    · rcases isIssued with oldLater | rfl
      · exact newest later oldLater before
      · exact Nat.lt_irrefl _ before.1
  · intro later isAppended earlier isIssued before
    simp only [sendMsg, List.mem_append, List.mem_singleton] at isIssued
    rcases isIssued with old | rfl
    · exact piped.closed later isAppended earlier old before
    · exact absurd before (newest later (appended_issued piped isAppended))
  · exact piped.sorted
  · exact piped.spawned
  · exact piped.logged
  · exact piped.known
  · intro before after entryId later earlier split found isIssued isBefore
    simp only [sendMsg, List.mem_append, List.mem_singleton] at isIssued
    rcases isIssued with old | rfl
    · exact piped.inOrder before after entryId later earlier split found old isBefore
    · exact absurd isBefore (newest later (appended_issued piped (List.mem_of_getElem? found)))

theorem handle_piped {world : Switchboard} (piped : Piped encode decode existing world)
    {sent : Sent} (posted : sent ∈ world.requests) :
    Piped encode decode existing (streamNewMessage sent world) := by
  constructor
  · exact piped.kept
  · exact piped.inGroup
  · exact piped.group
  · exact piped.entries
  · exact piped.numbered
  · exact piped.unique
  · have moved : (world.requests.erase sent ++ (world.appending ++ [sent] ++ world.appended)).Perm
        (world.requests ++ (world.appending ++ world.appended)) := by
      apply List.perm_iff_count.mpr
      intro other
      have posts := List.count_pos_iff.mpr posted
      by_cases same : sent = other
      · subst same
        simp only [List.count_append, List.count_erase_self, List.count_singleton_self]
        omega
      · simp only [List.count_append, List.count_erase_of_ne (Ne.symm same),
          List.count_singleton, beq_iff_eq, same, if_false]
        omega
    exact moved.trans piped.somewhere
  · intro other isRequest
    exact piped.last other (List.mem_of_mem_erase isRequest)
  · exact piped.closed
  · exact piped.sorted
  · exact piped.spawned
  · exact piped.logged
  · exact piped.known
  · exact piped.inOrder

theorem append_piped {world : Switchboard} (piped : Piped encode decode existing world)
    {sent : Sent} (waits : sent ∈ world.appending)
    (readBack : decode (encode sent.rpcMsg) = some sent.rpcMsg)
    (first : ∀ other ∈ world.appending, ¬ Before other sent) :
    Piped encode decode existing (sendToStream encode sent world) := by
  have apart := everywhere_nodup piped
  have new : sent ∉ world.appended := by
    intro old
    have rest := (List.nodup_append.mp apart).2.1
    exact (List.nodup_append.mp rest).2.2 sent waits sent old rfl
  have isIssued : sent ∈ world.issued :=
    piped.somewhere.mem_iff.mp (List.mem_append_right _ (List.mem_append_left _ waits))
  have earlierIn : ∀ earlier ∈ world.issued, Before earlier sent → earlier ∈ world.appended := by
    intro earlier member before
    rcases List.mem_append.mp (piped.somewhere.mem_iff.mpr member) with posted | rest
    · exact absurd before (piped.last earlier posted sent isIssued)
    · rcases List.mem_append.mp rest with waiting | old
      · exact absurd before (first earlier waiting)
      · exact old
  have kept : Kept decode 0 (sendToStream encode sent world).redis := by
    have positioned : Positioned world.redis := by
      unfold Positioned
      rw [piped.inGroup, if_pos rfl]
      exact piped.group
    have allowed : Unharmed decode world.redis (.append (entryOf encode sent)) := Or.inr positioned
    exact step_kept piped.kept allowed rfl
  constructor
  · exact kept
  · exact piped.inGroup
  · exact piped.group
  · simp only [sendToStream, xadd, piped.entries, List.map_append, List.map_cons, List.map_nil]
    rfl
  · exact piped.numbered
  · exact piped.unique
  · have moved : (world.requests ++ (world.appending.erase sent ++
        (world.appended ++ [sent]))).Perm
        (world.requests ++ (world.appending ++ world.appended)) := by
      apply List.perm_iff_count.mpr
      intro other
      have counted := List.count_pos_iff.mpr waits
      by_cases same : sent = other
      · subst same
        simp only [List.count_append, List.count_erase_self, List.count_singleton_self]
        omega
      · simp only [List.count_append, List.count_erase_of_ne (Ne.symm same),
          List.count_singleton, beq_iff_eq, same, if_false]
        omega
    exact moved.trans piped.somewhere
  · exact piped.last
  · intro later member earlier earlierIssued before
    rcases List.mem_append.mp member with old | isNew
    · exact List.mem_append_left _ (piped.closed later old earlier earlierIssued before)
    · rw [List.mem_singleton.mp isNew] at before
      exact List.mem_append_left _ (earlierIn earlier earlierIssued before)
  · intro i j earlier later atI atJ before
    simp only [sendToStream] at atI atJ
    rw [List.getElem?_append] at atI atJ
    split at atJ
    · rename_i jOld
      split at atI
      · exact piped.sorted i j earlier later atI atJ before
      · rename_i iNew
        have isNew : earlier = sent := by
          have member := List.mem_of_getElem? atI
          exact List.mem_singleton.mp member
        subst isNew
        exact absurd (piped.closed later (List.mem_of_getElem? atJ) earlier isIssued before) new
    · rename_i jNew
      have isNew : later = sent := List.mem_singleton.mp (List.mem_of_getElem? atJ)
      subst isNew
      split at atI
      · omega
      · have same : earlier = later := List.mem_singleton.mp (List.mem_of_getElem? atI)
        subst same
        exact absurd before.1 (Nat.lt_irrefl _)
  · exact piped.spawned
  · exact piped.logged
  · intro n member
    simp only [sendToStream, List.length_append, List.length_singleton]
    exact Nat.lt_succ_of_lt (piped.known n member)
  · intro before after entryId later earlier split found earlierIssued isBefore
    have inLog : Happening.started entryId ∈ world.log := by
      have whole : world.log = before ++ .started entryId :: after := split
      rw [whole]
      exact List.mem_append_right _ List.mem_cons_self
    simp only [sendToStream, List.getElem?_append_left (piped.known entryId inLog)] at found
    obtain ⟨earlierId, here, startedBefore, createdBefore⟩ :=
      piped.inOrder before after entryId later earlier split found earlierIssued isBefore
    refine ⟨earlierId, ?_, startedBefore, createdBefore⟩
    simp only [sendToStream, List.getElem?_append_left (List.getElem?_eq_some_iff.mp here).1, here]

/-- Steps of Redis and of the reader only add to what is passed on. -/
theorem redis_piped {world : Switchboard} (piped : Piped encode decode existing world)
    {redis : World} (kept : Kept decode 0 redis)
    (mode : grouped redis = grouped world.redis) (group : redis.group ≠ none)
    (stream : redis.stream = world.redis.stream)
    (sent : world.redis.server.sent <+: redis.server.sent) :
    Piped encode decode existing { world with redis := redis } := by
  constructor
  · exact kept
  · exact mode.trans piped.inGroup
  · exact group
  · exact stream.trans piped.entries
  · exact piped.numbered
  · exact piped.unique
  · exact piped.somewhere
  · exact piped.last
  · exact piped.closed
  · exact piped.sorted
  · intro n task found
    obtain ⟨more, whole⟩ := sent
    have old := piped.spawned n task found
    rw [← whole, List.getElem?_append_left (List.getElem?_eq_some_iff.mp old).1]
    exact old
  · exact piped.logged
  · exact piped.known
  · exact piped.inOrder

/-- All entries being well formed, no read is harmed. -/
theorem reads_unharmed {world : Switchboard} (piped : Piped encode decode existing world)
    (readBack : RoundTrip encode decode world.appended) : BatchUnharmed decode world.redis := by
  have well : ∀ entry ∈ unread world.redis, illFormed decode entry = false := by
    unfold unread
    rw [piped.entries]
    exact stream_well_formed readBack _
  unfold BatchUnharmed
  rw [piped.inGroup, if_pos rfl, behind_none fun entry member =>
    well entry (List.mem_of_mem_take member)]
  rfl

theorem reader_piped {world : Switchboard} (piped : Piped encode decode existing world)
    (readBack : RoundTrip encode decode world.appended) {event : StreamServer.Event} {redis : World}
    (isReader : event = .read ∨ event = .serve ∨ event = .timeout ∨ event = .create)
    (stepped : StreamServer.step decode world.redis event = some redis) :
    Piped encode decode existing { world with redis := redis } := by
  have allowed : Unharmed decode world.redis event := by
    have unharmed := reads_unharmed piped readBack
    rcases isReader with rfl | rfl | rfl | rfl
    · exact unharmed
    · exact unharmed
    · trivial
    · trivial
  have kept := step_kept piped.kept allowed stepped
  cases step_kind piped.kept.placed stepped with
  | append fields => simp at isReader
  | batch _ _ _ =>
    apply redis_piped piped kept (grouped_fetch _ _) _ (stream_fetch _ _)
    · rw [server_fetch]
      exact List.prefix_append _ _
    · have named := grouped_true.mp piped.inGroup
      simp [fetch, named, xreadgroup]
  | quiet _ _ stream sent _ _ mode group =>
    apply redis_piped piped kept mode (group piped.group) stream
    exact ⟨[], by rw [List.append_nil, sent]⟩

theorem receive_piped {world after : Switchboard} (piped : Piped encode decode existing world)
    (received : receive world = some after) : Piped encode decode existing after := by
  unfold receive at received
  split at received
  · rename_i entry rpcMsg found
    cases received
    constructor
    · exact piped.kept
    · exact piped.inGroup
    · exact piped.group
    · exact piped.entries
    · exact piped.numbered
    · exact piped.unique
    · exact piped.somewhere
    · exact piped.last
    · exact piped.closed
    · exact piped.sorted
    · intro n task here
      rw [List.getElem?_append] at here
      split at here
      · exact piped.spawned n task here
      · have bound := (List.getElem?_eq_some_iff.mp here).1
        simp only [List.length_singleton] at bound
        have last : n = world.tasks.length := by omega
        subst last
        simp only [Nat.sub_self, List.getElem?_cons_zero, Option.some.injEq] at here
        subst here
        exact found
    · intro n task here
      rw [List.getElem?_append] at here
      split at here
      · exact piped.logged n task here
      · have isNew := List.mem_singleton.mp (List.mem_of_getElem? here)
        subst isNew
        exact ⟨by simp, by simp⟩
    · exact piped.known
    · exact piped.inOrder
  · cases received

theorem set_stage_task {world : Switchboard} {task n : Nat} {stage : Stage} {found : Task}
    (here : (world.setStage task stage).tasks[n]? = some found) :
    (n ≠ task ∧ world.tasks[n]? = some found) ∨
      ∃ before, n = task ∧ world.tasks[task]? = some before ∧
        found = { before with stage := stage } := by
  simp only [Switchboard.setStage, List.getElem?_modify] at here
  by_cases same : task = n
  · right
    subst same
    cases old : world.tasks[task]? with
    | none => simp [old] at here
    | some before =>
      simp only [old, if_true, Option.map_eq_map, Option.map_some, Option.some.injEq] at here
      exact ⟨before, rfl, rfl, here.symm⟩
  · left
    simp only [if_neg same, id_map'] at here
    exact ⟨fun equal => same equal.symm, by simpa using here⟩

/-- A task that moves on, with what it adds to the log. -/
theorem stage_piped {world : Switchboard} (piped : Piped encode decode existing world)
    {task : Nat} {found : Task} (here : world.tasks[task]? = some found) {stage : Stage}
    {more : List Happening}
    (begun : stage = .started ∨ stage = .created →
      .started task ∈ world.log ++ more)
    (made : stage = .created → .created task ∈ world.log ++ more)
    (known : ∀ n, .started n ∈ more → n < world.appended.length)
    (inOrder : InOrder existing { world with log := world.log ++ more }) :
    Piped encode decode existing { world.setStage task stage with log := world.log ++ more } := by
  constructor
  · exact piped.kept
  · exact piped.inGroup
  · exact piped.group
  · exact piped.entries
  · exact piped.numbered
  · exact piped.unique
  · exact piped.somewhere
  · exact piped.last
  · exact piped.closed
  · exact piped.sorted
  · intro n other there
    rcases set_stage_task there with ⟨_, old⟩ | ⟨before, rfl, old, rfl⟩
    · exact piped.spawned n other old
    · exact piped.spawned n before old
  · intro n other there
    rcases set_stage_task there with ⟨_, old⟩ | ⟨before, rfl, old, rfl⟩
    · obtain ⟨wasBegun, wasMade⟩ := piped.logged n other old
      exact ⟨fun stage => List.mem_append_left _ (wasBegun stage),
        fun stage => List.mem_append_left _ (wasMade stage)⟩
    · exact ⟨begun, made⟩
  · intro n member
    rcases List.mem_append.mp member with old | new
    · exact piped.known n old
    · exact known n new
  · exact inOrder

theorem split_last {Item : Type} {before after log : List Item} {item last : Item}
    (same : before ++ item :: after = log ++ [last]) :
    (before = log ∧ item = last) ∨ ∃ rest, log = before ++ item :: rest := by
  rcases List.eq_nil_or_concat after with rfl | ⟨rest, final, rfl⟩
  · left
    obtain ⟨front, back⟩ := List.append_inj' same rfl
    exact ⟨front, (List.cons.inj back).1⟩
  · right
    have shifted : before ++ item :: rest ++ [final] = log ++ [last] := by
      rw [← same]
      simp
    exact ⟨rest, (List.append_inj' shifted rfl).1.symm⟩

/-- An entry more in the log, if it is no start. -/
theorem in_order_snoc {world : Switchboard} (inOrder : InOrder existing world)
    {last : Happening}
    (isStart : ∀ entryId later earlier, last = .started entryId →
      world.appended[entryId]? = some later → earlier ∈ world.issued → Before earlier later →
      ∃ earlierId : Nat, world.appended[earlierId]? = some earlier ∧
        .started earlierId ∈ world.log ∧
        (opensChannel existing earlier.rpcMsg = true → endsChannel later.rpcMsg = true →
          .created earlierId ∈ world.log)) :
    InOrder existing { world with log := world.log ++ [last] } := by
  intro before after entryId later earlier split found isIssued isBefore
  rcases split_last split.symm with ⟨rfl, same⟩ | ⟨rest, whole⟩
  · exact isStart entryId later earlier same.symm found isIssued isBefore
  · exact inOrder before rest entryId later earlier whole found isIssued isBefore

theorem ack_piped {world : Switchboard} (piped : Piped encode decode existing world)
    {task : Nat} {found : Task} (here : world.tasks[task]? = some found) :
    Piped encode decode existing
      { world.setStage task .acked with redis := found.entry.ack world.redis } := by
  have acked : Piped encode decode existing (world.setStage task .acked) := by
    have staged : Piped encode decode existing
        { world.setStage task .acked with log := world.log ++ [] } := by
      apply stage_piped piped here
      · simp
      · simp
      · simp
      · rw [List.append_nil]
        exact piped.inOrder
    rw [List.append_nil] at staged
    exact staged
  have allowed : Unharmed decode world.redis (.ack found.entry) := trivial
  have kept := step_kept piped.kept allowed rfl
  apply redis_piped acked kept
  · unfold RpcEntry.ack
    split <;> rfl
  · unfold RpcEntry.ack
    split <;> exact piped.group
  · unfold RpcEntry.ack
    split <;> rfl
  · unfold RpcEntry.ack
    split <;> exact List.prefix_refl _

theorem process_piped {world : Switchboard} (piped : Piped encode decode existing world)
    (readBack : RoundTrip encode decode world.appended) {task : Nat} {found : Task}
    (here : world.tasks[task]? = some found)
    (allowed : NoOvertaking existing world (.process task)) :
    Piped encode decode existing { world.setStage task .started with
      log := world.log ++ [.started task] } := by
  obtain ⟨_, sent, atTask, _⟩ := task_entry piped readBack here
  apply stage_piped piped here
  · intro _
    simp
  · intro impossible
    cases impossible
  · intro n member
    cases List.mem_singleton.mp member
    exact (List.getElem?_eq_some_iff.mp atTask).1
  · apply in_order_snoc piped.inOrder
    intro entryId later earlier same isLater isIssued isBefore
    cases same
    have isAppended := piped.closed later (List.mem_of_getElem? isLater) earlier isIssued isBefore
    obtain ⟨earlierId, atEarlier⟩ := List.mem_iff_getElem?.mp isAppended
    have ahead : earlierId < task := piped.sorted earlierId task earlier later atEarlier isLater isBefore
    obtain ⟨other, isOther⟩ : ∃ other, world.tasks[earlierId]? = some other := by
      have bound := (List.getElem?_eq_some_iff.mp here).1
      exact ⟨_, List.getElem?_eq_getElem (Nat.lt_trans ahead bound)⟩
    obtain ⟨begun, made⟩ := allowed later earlier earlierId other isLater atEarlier isBefore isOther
    obtain ⟨logBegun, logMade⟩ := piped.logged earlierId other isOther
    exact ⟨earlierId, atEarlier, logBegun begun,
      fun opens ends => logMade (made opens ends)⟩

theorem new_inbound_piped {world : Switchboard} (piped : Piped encode decode existing world)
    {task : Nat} {found : Task} (here : world.tasks[task]? = some found)
    (begun : found.stage = .started) :
    Piped encode decode existing { world.setStage task .created with
      log := world.log ++ [.created task] } := by
  apply stage_piped piped here
  · intro _
    exact List.mem_append_left _ ((piped.logged task found here).1 (Or.inl begun))
  · intro _
    simp
  · intro n member
    cases List.mem_singleton.mp member
  · apply in_order_snoc piped.inOrder
    intro entryId later earlier same
    cases same

theorem step_piped {world after : Switchboard} {event : Event}
    (piped : Piped encode decode existing world)
    (readBack : RoundTrip encode decode world.issued)
    (allowed : NoOvertaking existing world event)
    (stepped : step encode decode existing world event = some after) :
    Piped encode decode existing after := by
  have streamReadBack : RoundTrip encode decode world.appended :=
    fun sent member => readBack sent (appended_issued piped member)
  have reader : ∀ event redis, (event = .read ∨ event = .serve ∨ event = .timeout ∨
      event = .create) → StreamServer.step decode world.redis event = some redis →
      Piped encode decode existing { world with redis := redis } :=
    fun _ _ isReader moved => reader_piped piped streamReadBack isReader moved
  cases event with
  | send sender rpcMsg =>
    simp only [step] at stepped
    split at stepped
    · cases stepped
    · rename_i answered
      cases stepped
      apply send_piped piped
      intro sent posted same
      apply answered
      exact List.any_eq_true.mpr ⟨sent, posted, by simp [same.1, same.2]⟩
  | handle sent =>
    simp only [step] at stepped
    split at stepped
    · rename_i posted
      cases stepped
      exact handle_piped piped posted
    · cases stepped
  | append sent =>
    simp only [step] at stepped
    split at stepped
    · rename_i waits
      cases stepped
      have isIssued : sent ∈ world.issued :=
        piped.somewhere.mem_iff.mp (List.mem_append_right _ (List.mem_append_left _ waits))
      exact append_piped piped waits (readBack sent isIssued) allowed
    · cases stepped
  | read =>
    obtain ⟨redis, moved, rfl⟩ := Option.map_eq_some_iff.mp stepped
    exact reader .read redis (by simp) moved
  | serve =>
    obtain ⟨redis, moved, rfl⟩ := Option.map_eq_some_iff.mp stepped
    exact reader .serve redis (by simp) moved
  | timeout =>
    obtain ⟨redis, moved, rfl⟩ := Option.map_eq_some_iff.mp stepped
    exact reader .timeout redis (by simp) moved
  | create =>
    obtain ⟨redis, moved, rfl⟩ := Option.map_eq_some_iff.mp stepped
    exact reader .create redis (by simp) moved
  | receive => exact receive_piped piped stepped
  | ack task =>
    simp only [step] at stepped
    split at stepped
    · rename_i entry rpcMsg here
      cases stepped
      exact ack_piped piped here
    · cases stepped
  | process task =>
    simp only [step] at stepped
    split at stepped
    · rename_i entry rpcMsg here
      cases stepped
      rw [(task_entry piped streamReadBack here).1]
      exact process_piped piped streamReadBack here allowed
    · cases stepped
  | newInbound task =>
    simp only [step] at stepped
    split at stepped
    · rename_i entry rpcMsg here
      split at stepped
      · cases stepped
        rw [(task_entry piped streamReadBack here).1]
        exact new_inbound_piped piped here rfl
      · cases stepped
    · cases stepped

theorem issued_grows {world after : Switchboard} {event : Event}
    (stepped : step encode decode existing world event = some after) :
    world.issued ⊆ after.issued := by
  cases event with
  | send sender rpcMsg =>
    simp only [step] at stepped
    split at stepped
    · cases stepped
    · cases stepped
      exact List.subset_append_left _ _
  | handle sent =>
    simp only [step] at stepped
    split at stepped <;> cases stepped
    exact List.Subset.refl _
  | append sent =>
    simp only [step] at stepped
    split at stepped <;> cases stepped
    exact List.Subset.refl _
  | read | serve | timeout | create =>
    obtain ⟨redis, _, rfl⟩ := Option.map_eq_some_iff.mp stepped
    exact List.Subset.refl _
  | receive =>
    simp only [step, receive] at stepped
    split at stepped <;> cases stepped
    exact List.Subset.refl _
  | ack task | process task =>
    simp only [step] at stepped
    split at stepped <;> cases stepped
    exact List.Subset.refl _
  | newInbound task =>
    simp only [step] at stepped
    split at stepped
    · split at stepped <;> cases stepped
      exact List.Subset.refl _
    · cases stepped

def inboundText : String :=
  "\x7b\"method\":\"new_inbound_channel\",\"id\":\"a\",\"params\":\x7b\"existing\":false\x7d\x7d"

def inboundMsg : RpcMessage := ⟨.NewInboundChannel, "a", "\x7b\"existing\":false\x7d"⟩

/-- serde_json on the two messages below. -/
def write (rpcMsg : RpcMessage) : String :=
  if rpcMsg = inboundMsg then inboundText else cancelText

def readBack (text : String) : Option RpcMessage :=
  if text = inboundText then some inboundMsg else sample text

def notExisting (_ : String) : Bool := false

def first : Sent := ⟨0, 0, inboundMsg⟩

def second : Sent := ⟨1, 0, cancelMsg⟩

/-- The tasks run in the order in which they were spawned, the second one after the
    first has made the channel. -/
def inTurn : List Event :=
  [.send 0 inboundMsg, .handle first, .send 0 cancelMsg, .handle second, .append first,
    .append second, .read, .receive, .receive, .ack 0, .process 0, .newInbound 0, .ack 1,
    .process 1]

/-- The append task of the Cancel runs first. -/
def cancelFirst : List Event :=
  [.send 0 inboundMsg, .handle first, .send 0 cancelMsg, .handle second, .append second,
    .append first, .read, .receive, .ack 0, .process 0]

/-- The stream is in order, and the Cancel's call of process_rpc comes first. -/
def processFirst : List Event :=
  [.send 0 inboundMsg, .handle first, .send 0 cancelMsg, .handle second, .append first,
    .append second, .read, .receive, .receive, .ack 1, .process 1]

def switchboard : Switchboard := listening "nebula:switchboard:stream" "switchboard"

/-- No task of an earlier message of the channel is left behind. -/
def noneBehind (existing : String → Bool) (world : Switchboard) : Event → Bool
  | .append sent => world.appending.all fun other => !decide (Before other sent)
  | .process task =>
    match world.appended[task]? with
    | some later => (world.appended.zip world.tasks).all fun pair =>
        !decide (Before pair.1 later) ||
          (if opensChannel existing pair.1.rpcMsg && endsChannel later.rpcMsg
            then pair.2.stage = .created
            else pair.2.stage = .started || pair.2.stage = .created)
    | none => true
  | _ => true

theorem none_behind_sound (world : Switchboard) (event : Event)
    (passed : noneBehind existing world event = true) : NoOvertaking existing world event := by
  cases event with
  | append sent =>
    intro other member
    simpa using List.all_eq_true.mp passed other member
  | process task =>
    intro later earlier other found atTask atOther before here
    simp only [noneBehind, atTask] at passed
    have paired : (earlier, found) ∈ world.appended.zip world.tasks :=
      List.mem_of_getElem? (List.getElem?_zip_eq_some.mpr ⟨atOther, here⟩)
    have past := List.all_eq_true.mp passed _ paired
    simp only [before, decide_true, Bool.not_true, Bool.false_or] at past
    split at past
    · have made : found.stage = .created := by simpa using past
      exact ⟨Or.inr made, fun _ _ => made⟩
    · rename_i harmless
      refine ⟨by simpa using past, fun opens ends => ?_⟩
      simp [opens, ends] at harmless
  | _ => trivial

end CommandOrder
