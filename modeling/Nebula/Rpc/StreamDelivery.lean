import Nebula.Rpc.StreamServer

/- What the receiver of an RpcServer gets of the entries of a stream. -/
namespace StreamDelivery
open Runs Rpc StreamServer
variable (decode : String → Option RpcMessage)

/-- The well-formed message of an entry, if it has one. -/
def messageOf (entry : Fields × Nat) : Option (Nat × RpcMessage) :=
  ((messageText entry.1).bind decode).map fun rpcMsg => (entry.2, rpcMsg)

/-- The entry has a message that is not well formed. -/
def illFormed (entry : Fields × Nat) : Bool :=
  match messageText entry.1 with
  | some value => (decode value).isNone
  | none => false

def grouped (world : World) : Bool := world.server.streamGroup != ""

/-- Where the next read starts. -/
def position (world : World) : Nat :=
  if grouped world then world.group.getD world.stream.length
  else match world.server.phase with
    | .blocked start => start
    | _ => startOf world world.server.keyId

def unread (world : World) : List (Fields × Nat) := entriesFrom (position world) world.stream

/-- The server has just started to read: its first read from $ blocks, or the group
    is there, or the first read has found that it is not. -/
structure Started (world : World) : Prop where
  sent : world.server.sent = []
  alone : grouped world = false →
    world.server.keyId = .«$» ∧ world.server.phase = .blocked world.stream.length
  inGroup : grouped world = true → ∀ start, world.group = some start →
    start ≤ world.stream.length ∧ world.server.phase = .ready
  noGroup : grouped world = true → world.group = none → world.server.phase = .creating

def delivered (world : World) : List (Nat × RpcMessage) :=
  world.server.sent.map fun passed => (passed.1.entryId, passed.2)

/-- The entries behind the first ill-formed one. -/
def behindIllFormed (entries : List (Fields × Nat)) : List (Fields × Nat) :=
  (entries.dropWhile fun entry => !illFormed decode entry).drop 1

/-- No entry is skipped or read again because of an ill-formed one. In a group the
    batch counts as read; without one a failed batch is read again, except that a
    read from $ moves on to what is new by then. -/
def BatchUnharmed (world : World) : Prop :=
  if grouped world then
    (behindIllFormed decode ((unread world).take readCount)).filterMap (messageOf decode) = []
  else match world.server.keyId with
    | .after _ => ∀ entry ∈ (unread world).take readCount, illFormed decode entry = false
    | .«$» => (behindIllFormed decode (unread world)).filterMap (messageOf decode) = []

/-- An entry that is appended now has a read position before it. -/
def Positioned (world : World) : Prop :=
  if grouped world then world.group ≠ none
  else world.server.keyId ≠ .«$» ∨ ∃ start, world.server.phase = .blocked start

def Unharmed : Guard World Event := fun world event =>
  match event with
  | .append fields => messageOf decode (fields, world.stream.length) = none ∨ Positioned world
  | .read => BatchUnharmed decode world
  | .serve => BatchUnharmed decode world
  | _ => True

/-- What has been passed on is followed by what is still unread, and while there is
    something unread a read is answered and gets ahead. -/
structure Delivers (guard : Guard World Event) (start : Nat) (world : World) : Prop where
  inOrder : delivered world ++ (unread world).filterMap (messageOf decode) =
    (entriesFrom start world.stream).filterMap (messageOf decode)
  ahead : unread world ≠ [] → ∃ event after, (event = .read ∨ event = .serve) ∧
    step decode world event = some after ∧
    (guard world event → (unread after).length < (unread world).length)

theorem entries_from_eq (start : Nat) (stream : List Fields) :
    entriesFrom start stream = (stream.drop start).zipIdx start := by
  apply List.ext_getElem?
  intro index
  simp [entriesFrom, List.getElem?_drop, List.getElem?_zipIdx]

theorem entries_from_append {start : Nat} {stream : List Fields} (within : start ≤ stream.length)
    (fields : Fields) :
    entriesFrom start (stream ++ [fields]) = entriesFrom start stream ++ [(fields, stream.length)] := by
  unfold entriesFrom
  rw [List.zipIdx_append, List.drop_append_of_le_length (by simpa using within)]
  simp

theorem entries_from_end (stream : List Fields) : entriesFrom stream.length stream = [] := by
  rw [entries_from_eq, List.drop_length]
  rfl

variable {decode}

theorem ill_formed_message {entry : Fields × Nat} (ill : illFormed decode entry = true) :
    messageOf decode entry = none := by
  unfold illFormed at ill
  unfold messageOf
  cases text : messageText entry.1 with
  | none => rfl
  | some value =>
    rw [text] at ill
    have failed : decode value = none := Option.isNone_iff_eq_none.mp ill
    simp [failed]

theorem messages_split (entries : List (Fields × Nat)) :
    entries.filterMap (messageOf decode) =
      (entries.takeWhile fun entry => !illFormed decode entry).filterMap (messageOf decode) ++
        (behindIllFormed decode entries).filterMap (messageOf decode) := by
  induction entries with
  | nil => rfl
  | cons entry entries ih =>
    cases ill : illFormed decode entry with
    | true =>
      have none := ill_formed_message ill
      simp [behindIllFormed, ill, none]
    | false =>
      have behind : behindIllFormed decode (entry :: entries) = behindIllFormed decode entries := by
        simp [behindIllFormed, ill]
      rw [behind, List.takeWhile_cons, ill]
      simp only [Bool.not_false, if_true, List.filterMap_cons]
      cases messageOf decode entry with
      | none => exact ih
      | some found => rw [List.cons_append, ← ih]

theorem process_other {server : RpcServer} {fields : Fields} (text : messageText fields = none)
    (newKeyId : KeyId) (entryId : Nat) (entries : List (Fields × Nat)) :
    processEntries decode server newKeyId ((fields, entryId) :: entries) =
      processEntries decode server (.after entryId) entries := by
  simp only [processEntries, text]

theorem process_ill {server : RpcServer} {fields : Fields} {value : String}
    (text : messageText fields = some value) (failed : decode value = none)
    (newKeyId : KeyId) (entryId : Nat) (entries : List (Fields × Nat)) :
    processEntries decode server newKeyId ((fields, entryId) :: entries) = ([], none) := by
  simp only [processEntries, text, failed]

theorem process_well {server : RpcServer} {fields : Fields} {value : String} {rpcMsg : RpcMessage}
    (text : messageText fields = some value) (decoded : decode value = some rpcMsg)
    (newKeyId : KeyId) (entryId : Nat) (entries : List (Fields × Nat)) :
    processEntries decode server newKeyId ((fields, entryId) :: entries) =
      ((⟨entryId, server.streamName, server.streamGroup⟩, rpcMsg) ::
          (processEntries decode server (.after entryId) entries).1,
        (processEntries decode server (.after entryId) entries).2) := by
  simp only [processEntries, text, decoded]

/-- An entry has no message, an ill-formed one or a well-formed one. -/
theorem entry_cases (decode : String → Option RpcMessage) (fields : Fields) (entryId : Nat) :
    (messageText fields = none ∧ illFormed decode (fields, entryId) = false ∧
        messageOf decode (fields, entryId) = none) ∨
      (∃ value, messageText fields = some value ∧ decode value = none ∧
        illFormed decode (fields, entryId) = true) ∨
      ∃ value rpcMsg, messageText fields = some value ∧ decode value = some rpcMsg ∧
        illFormed decode (fields, entryId) = false ∧
        messageOf decode (fields, entryId) = some (entryId, rpcMsg) := by
  cases text : messageText fields with
  | none => exact Or.inl ⟨rfl, by simp [illFormed, text], by simp [messageOf, text]⟩
  | some value =>
    right
    cases decoded : decode value with
    | none => exact Or.inl ⟨value, rfl, decoded, by simp [illFormed, text, decoded]⟩
    | some rpcMsg =>
      exact Or.inr ⟨value, rpcMsg, rfl, decoded, by simp [illFormed, text, decoded],
        by simp [messageOf, text, decoded]⟩

/-- The loop sends the messages before the first ill-formed entry. -/
theorem process_sends (server : RpcServer) (entries : List (Fields × Nat)) : ∀ newKeyId,
    (processEntries decode server newKeyId entries).1.map (fun sent => (sent.1.entryId, sent.2)) =
      (entries.takeWhile fun entry => !illFormed decode entry).filterMap (messageOf decode) := by
  induction entries with
  | nil =>
    intro newKeyId
    rfl
  | cons entry entries ih =>
    intro newKeyId
    obtain ⟨fields, entryId⟩ := entry
    rcases entry_cases decode fields entryId with ⟨text, well, silent⟩ |
      ⟨value, text, failed, ill⟩ | ⟨value, rpcMsg, text, decoded, well, found⟩
    · rw [process_other text, ih, List.takeWhile_cons, well]
      simp only [Bool.not_false, if_true, List.filterMap_cons, silent]
    · rw [process_ill text failed, List.takeWhile_cons, ill]
      rfl
    · rw [process_well text decoded, List.map_cons, ih, List.takeWhile_cons, well]
      simp only [Bool.not_false, if_true, List.filterMap_cons, found]

theorem process_fails (server : RpcServer) {entries : List (Fields × Nat)}
    (harmed : ∃ entry ∈ entries, illFormed decode entry = true) : ∀ newKeyId,
      (processEntries decode server newKeyId entries).2 = none := by
  induction entries with
  | nil => simp at harmed
  | cons entry entries ih =>
    intro newKeyId
    obtain ⟨fields, entryId⟩ := entry
    obtain ⟨bad, member, ill⟩ := harmed
    have later : illFormed decode (fields, entryId) = false →
        ∃ entry ∈ entries, illFormed decode entry = true := by
      intro well
      rcases List.mem_cons.mp member with rfl | later
      · rw [well] at ill
        cases ill
      · exact ⟨bad, later, ill⟩
    rcases entry_cases decode fields entryId with ⟨text, well, silent⟩ |
      ⟨value, text, failed, _⟩ | ⟨value, rpcMsg, text, decoded, well, found⟩
    · rw [process_other text]
      exact ih (later well) _
    · rw [process_ill text failed]
    · rw [process_well text decoded]
      exact ih (later well) _

/-- Without an ill-formed entry the loop ends at the id of the last one. -/
theorem process_ends (server : RpcServer) (batch : List Fields) : ∀ start newKeyId,
    (∀ entry ∈ batch.zipIdx start, illFormed decode entry = false) →
      (processEntries decode server newKeyId (batch.zipIdx start)).2 =
        some (if batch = [] then newKeyId else .after (start + batch.length - 1)) := by
  induction batch with
  | nil =>
    intro start newKeyId well
    rfl
  | cons fields batch ih =>
    intro start newKeyId well
    have wellHead := well (fields, start) List.mem_cons_self
    have inner := ih (start + 1) (.after start) (fun entry member => well entry
      (List.mem_cons_of_mem _ member))
    have last : (if batch = [] then KeyId.after start
        else .after (start + 1 + batch.length - 1)) = .after (start + (batch.length + 1) - 1) := by
      cases batch with
      | nil => rfl
      | cons _ _ =>
        simp only [reduceCtorEq, if_false, KeyId.after.injEq]
        omega
    rw [last] at inner
    simp only [List.zipIdx_cons, reduceCtorEq, if_false, List.length_cons]
    rcases entry_cases decode fields start with ⟨text, _, _⟩ |
      ⟨value, _, _, ill⟩ | ⟨value, rpcMsg, text, decoded, _, _⟩
    · rw [process_other text]
      exact inner
    · rw [wellHead] at ill
      cases ill
    · rw [process_well text decoded]
      exact inner

def batchFrom (start : Nat) (stream : List Fields) : List (Fields × Nat) :=
  (entriesFrom start stream).take readCount

theorem batch_then_rest (start : Nat) (stream : List Fields) :
    entriesFrom start stream =
      batchFrom start stream ++ entriesFrom (start + (batchFrom start stream).length) stream := by
  have rest : entriesFrom (start + (batchFrom start stream).length) stream =
      (entriesFrom start stream).drop (batchFrom start stream).length := by
    simp only [entriesFrom, List.drop_drop]
  have taken : (entriesFrom start stream).take (batchFrom start stream).length =
      batchFrom start stream := by
    unfold batchFrom
    rw [List.length_take, ← List.take_take, List.take_length]
  calc entriesFrom start stream
      = (entriesFrom start stream).take (batchFrom start stream).length ++
          (entriesFrom start stream).drop (batchFrom start stream).length :=
        (List.take_append_drop _ _).symm
    _ = _ := by rw [taken, rest]

theorem batch_zip (start : Nat) (stream : List Fields) :
    batchFrom start stream = ((stream.drop start).take readCount).zipIdx start := by
  unfold batchFrom
  rw [entries_from_eq]
  apply List.ext_getElem?
  intro index
  simp only [List.getElem?_zipIdx, List.getElem?_take]
  split <;> simp

theorem batch_length (start : Nat) (stream : List Fields) :
    (batchFrom start stream).length = min readCount (stream.length - start) := by
  simp [batchFrom, entriesFrom]

/-- What a read hands to the loop. -/
def fetch (decode : String → Option RpcMessage) (start : Nat) (world : World) : World :=
  if world.server.streamGroup = "" then xread decode start world else xreadgroup decode start world

/- The position is inside the stream, and a blocked read waits there. -/
structure Placed (world : World) : Prop where
  within : position world ≤ world.stream.length
  alone : grouped world = false → world.server.phase ≠ .creating ∧
    ∀ start entryId, world.server.phase = .blocked start → world.server.keyId = .after entryId →
      start = entryId + 1
  inGroup : grouped world = true → (∀ start, world.server.phase = .blocked start →
    world.group = some start) ∧ (world.server.phase = .creating → world.group = none)

theorem grouped_false {world : World} : grouped world = false ↔ world.server.streamGroup = "" := by
  simp [grouped]

theorem grouped_true {world : World} : grouped world = true ↔ world.server.streamGroup ≠ "" := by
  simp [grouped]

theorem position_blocked {world : World} (alone : grouped world = false) {start : Nat}
    (blocked : world.server.phase = .blocked start) : position world = start := by
  simp only [position, alone, Bool.false_eq_true, if_false, blocked]

theorem position_ready {world : World} (alone : grouped world = false)
    (ready : world.server.phase = .ready) : position world = startOf world world.server.keyId := by
  simp only [position, alone, Bool.false_eq_true, if_false, ready]

theorem position_grouped {world : World} (inGroup : grouped world = true) :
    position world = world.group.getD world.stream.length := by
  simp only [position, inGroup, if_true]

theorem started_placed {world : World} (started : Started world) : Placed world := by
  cases mode : grouped world with
  | false =>
    obtain ⟨fromNow, blocked⟩ := started.alone mode
    constructor
    · exact Nat.le_of_eq (position_blocked mode blocked)
    · intro _
      rw [blocked, fromNow]
      exact ⟨by simp, by simp⟩
    · intro inGroup
      rw [mode] at inGroup
      cases inGroup
  | true =>
    cases group : world.group with
    | none =>
      have creating := started.noGroup mode group
      constructor
      · simp [position_grouped mode, group]
      · intro alone
        rw [mode] at alone
        cases alone
      · intro _
        rw [creating]
        exact ⟨by simp, fun _ => group⟩
    | some start =>
      obtain ⟨within, ready⟩ := started.inGroup mode start group
      constructor
      · simpa [position_grouped mode, group] using within
      · intro alone
        rw [mode] at alone
        cases alone
      · intro _
        rw [ready]
        exact ⟨by simp, by simp⟩

theorem grouped_fetch (start : Nat) (world : World) :
    grouped (fetch decode start world) = grouped world := by
  unfold fetch
  split <;> rfl

theorem stream_fetch (start : Nat) (world : World) :
    (fetch decode start world).stream = world.stream := by
  unfold fetch
  split <;> rfl

theorem server_fetch (start : Nat) (world : World) :
    (fetch decode start world).server =
      processStream decode world.server (batchFrom start world.stream) := by
  unfold fetch
  split <;> rfl

@[simp] theorem grouped_set_phase (world : World) (phase : Phase) :
    grouped (world.setPhase phase) = grouped world := rfl

/-- In a group only the group's own position counts. -/
theorem position_set_phase {world : World} (inGroup : grouped world = true) (phase : Phase) :
    position (world.setPhase phase) = position world := by
  rw [position_grouped inGroup, @position_grouped (world.setPhase phase) inGroup]
  rfl

theorem alone_set_phase {world : World} (alone : grouped world = false) (phase : Phase) :
    grouped (world.setPhase phase) = false := alone

theorem quiet_alone {world : World} (alone : grouped world = false) (placed : Placed world)
    {phase : Phase} (notCreating : phase ≠ .creating)
    (follows : ∀ start entryId, phase = .blocked start → world.server.keyId = .after entryId →
      start = entryId + 1)
    (stays : position (world.setPhase phase) = position world) :
    Placed (world.setPhase phase) := by
  constructor
  · rw [stays]
    exact placed.within
  · intro _
    exact ⟨notCreating, follows⟩
  · intro inGroup
    rw [grouped_set_phase, alone] at inGroup
    cases inGroup

theorem quiet_grouped {world : World} (inGroup : grouped world = true) (placed : Placed world)
    {phase : Phase} (waits : ∀ start, phase = .blocked start → world.group = some start)
    (missing : phase = .creating → world.group = none) : Placed (world.setPhase phase) := by
  constructor
  · rw [position_set_phase inGroup]
    exact placed.within
  · intro alone
    rw [grouped_set_phase, inGroup] at alone
    cases alone
  · intro _
    exact ⟨waits, missing⟩

/- The three kinds of step: an append, a batch from the position on, and one that
   neither the receiver nor the position notices. -/
inductive StepKind (decode : String → Option RpcMessage) (world : World) : Event → World → Prop where
  | append (fields : Fields) :
    StepKind decode world (.append fields) (xadd fields world)
  | batch (event : Event) (isRead : event = .read ∨ event = .serve)
    (due : position world < world.stream.length) :
    StepKind decode world event (fetch decode (position world) world)
  | quiet (event : Event) (after : World) (stream : after.stream = world.stream)
    (sent : after.server.sent = world.server.sent) (stays : position after = position world)
    (placed : Placed after) (mode : grouped after = grouped world)
    (group : world.group ≠ none → after.group ≠ none) : StepKind decode world event after

theorem phase_kind {world : World} {event : Event} {phase : Phase}
    (stays : position (world.setPhase phase) = position world)
    (placed : Placed (world.setPhase phase)) :
    StepKind decode world event (world.setPhase phase) :=
  StepKind.quiet event _ rfl rfl stays placed rfl id

theorem read_due {world : World} (ready : world.server.phase = .ready)
    (due : position world < world.stream.length) :
    StreamServer.read decode world = fetch decode (position world) world := by
  cases mode : grouped world with
  | false =>
    have single := grouped_false.mp mode
    simp only [StreamServer.read, single, if_true, ← position_ready mode ready, due, fetch]
  | true =>
    have named := grouped_true.mp mode
    cases group : world.group with
    | none =>
      rw [position_grouped mode, group] at due
      exact absurd due (Nat.lt_irrefl _)
    | some start =>
      have here : position world = start := by
        rw [position_grouped mode, group]
        rfl
      rw [here] at due
      simp only [StreamServer.read, named, if_false, group, due, if_true, fetch, here]

theorem read_kind {world : World} (placed : Placed world) (ready : world.server.phase = .ready) :
    StepKind decode world .read (StreamServer.read decode world) := by
  by_cases due : position world < world.stream.length
  · rw [read_due ready due]
    exact StepKind.batch _ (Or.inl rfl) due
  · cases mode : grouped world with
    | false =>
      have single := grouped_false.mp mode
      have blocks : StreamServer.read decode world =
          world.setPhase (.blocked (position world)) := by
        simp only [StreamServer.read, single, if_true, ← position_ready mode ready, due, if_false]
      have stays : position (world.setPhase (.blocked (position world))) = position world :=
        position_blocked (alone_set_phase mode _) rfl
      rw [blocks]
      apply phase_kind stays
      apply quiet_alone mode placed (by simp) _ stays
      intro start entryId blocked key
      cases blocked
      rw [position_ready mode ready, key]
      rfl
    | true =>
      have named := grouped_true.mp mode
      cases group : world.group with
      | none =>
        have fails : StreamServer.read decode world = world.setPhase .creating := by
          simp only [StreamServer.read, named, if_false, group]
        rw [fails]
        apply phase_kind (position_set_phase mode _)
        exact quiet_grouped mode placed (by simp) (fun _ => group)
      | some start =>
        have here : position world = start := by
          rw [position_grouped mode, group]
          rfl
        rw [here] at due
        have blocks : StreamServer.read decode world = world.setPhase (.blocked start) := by
          simp only [StreamServer.read, named, if_false, group, due]
        rw [blocks]
        apply phase_kind (position_set_phase mode _)
        apply quiet_grouped mode placed _ (by simp)
        intro other same
        cases same
        exact group

theorem blocked_position {world : World} (placed : Placed world) {start : Nat}
    (blocked : world.server.phase = .blocked start) : position world = start := by
  cases mode : grouped world with
  | false => exact position_blocked mode blocked
  | true =>
    rw [position_grouped mode, (placed.inGroup mode).1 start blocked]
    rfl

theorem serve_kind {world : World} (placed : Placed world) {start : Nat}
    (blocked : world.server.phase = .blocked start) (due : start < world.stream.length) :
    StepKind decode world .serve (fetch decode start world) := by
  have here := blocked_position placed blocked
  subst here
  exact StepKind.batch _ (Or.inr rfl) due

theorem timeout_kind {world : World} (placed : Placed world) {start : Nat}
    (blocked : world.server.phase = .blocked start) (nothing : ¬ start < world.stream.length) :
    StepKind decode world .timeout (world.setPhase .ready) := by
  have here := blocked_position placed blocked
  cases mode : grouped world with
  | false =>
    have stays : position (world.setPhase .ready) = position world := by
      rw [here]
      cases key : world.server.keyId with
      | «$» =>
        rw [position_ready (alone_set_phase mode .ready) rfl]
        simp only [World.setPhase, key, startOf]
        have within := placed.within
        rw [here] at within
        exact Nat.le_antisymm (Nat.le_of_not_lt nothing) within
      | after entryId =>
        rw [position_ready (alone_set_phase mode .ready) rfl]
        simp only [World.setPhase, key, startOf]
        exact ((placed.alone mode).2 start entryId blocked key).symm
    apply phase_kind stays
    exact quiet_alone mode placed (by simp) (by simp) stays
  | true =>
    apply phase_kind (position_set_phase mode _)
    exact quiet_grouped mode placed (by simp) (by simp)

theorem create_kind {world : World} (placed : Placed world)
    (creating : world.server.phase = .creating) :
    StepKind decode world .create ((xgroupCreate world).setPhase .ready) := by
  cases mode : grouped world with
  | false => exact absurd creating (placed.alone mode).1
  | true =>
    have missing := (placed.inGroup mode).2 creating
    have stays : position ((xgroupCreate world).setPhase .ready) = position world := by
      rw [position_grouped mode, @position_grouped ((xgroupCreate world).setPhase .ready) mode,
        missing]
      simp [xgroupCreate, World.setPhase, missing]
    have after : Placed ((xgroupCreate world).setPhase .ready) := by
      constructor
      · rw [stays]
        exact placed.within
      · intro alone
        exact absurd (mode.symm.trans alone) (by simp)
      · intro _
        constructor
        · intro start blocked
          cases blocked
        · intro creates
          cases creates
    exact StepKind.quiet _ _ rfl rfl stays after rfl (by simp [xgroupCreate, World.setPhase])

theorem ack_kind {world : World} (placed : Placed world) (entry : RpcEntry) :
    StepKind decode world (.ack entry) (entry.ack world) := by
  unfold RpcEntry.ack
  split
  · exact StepKind.quiet _ _ rfl rfl rfl ⟨placed.within, placed.alone, placed.inGroup⟩ rfl id
  · exact StepKind.quiet _ _ rfl rfl rfl placed rfl id

theorem step_kind {world after : World} {event : Event} (placed : Placed world)
    (stepped : step decode world event = some after) :
    StepKind decode world event after := by
  unfold step at stepped
  split at stepped
  · cases stepped
    exact StepKind.append _
  · rename_i ready
    cases stepped
    exact read_kind placed ready
  · rename_i start blocked
    split at stepped
    · rename_i due
      cases stepped
      exact serve_kind placed blocked due
    · cases stepped
  · rename_i start blocked
    split at stepped
    · cases stepped
    · rename_i nothing
      cases stepped
      exact timeout_kind placed blocked nothing
  · rename_i creating
    cases stepped
    exact create_kind placed creating
  · cases stepped
    exact ack_kind placed _
  · cases stepped

def sendable (decode : String → Option RpcMessage) (entry : Fields × Nat) : Bool := !illFormed decode entry

theorem delivered_fetch (world : World) (start : Nat) :
    delivered (fetch decode start world) = delivered world ++
      ((batchFrom start world.stream).takeWhile (sendable decode)).filterMap
        (messageOf decode) := by
  unfold delivered
  rw [server_fetch]
  simp only [processStream, List.map_append, process_sends]
  rfl

/- What a batch has to do for the run: what it leaves unread are the messages that it
   did not pass on, and there is less of it. -/
structure Batched (decode : String → Option RpcMessage) (world after : World) : Prop where
  messages : (unread world).filterMap (messageOf decode) =
    ((batchFrom (position world) world.stream).takeWhile
      (sendable decode)).filterMap (messageOf decode) ++
      (unread after).filterMap (messageOf decode)
  shorter : (unread after).length < (unread world).length
  placed : Placed after

theorem unread_length (world : World) :
    (unread world).length = world.stream.length - position world := by
  simp [unread, entriesFrom]

/-- The batch counts as read and nothing of it is lost. -/
theorem batched_past {world after : World} (due : position world < world.stream.length)
    (stream : after.stream = world.stream) (ready : after.server.phase = .ready)
    (moved : position after =
      position world + (batchFrom (position world) world.stream).length)
    (harmless : (behindIllFormed decode (batchFrom (position world) world.stream)).filterMap
      (messageOf decode) = []) : Batched decode world after := by
  have size := batch_length (position world) world.stream
  have readAtLeastOne : 0 < readCount := by decide
  constructor
  · unfold unread
    rw [stream, moved, batch_then_rest (position world) world.stream, List.filterMap_append,
      messages_split (batchFrom (position world) world.stream), harmless, List.append_nil]
    rfl
  · rw [unread_length, unread_length, stream, moved]
    omega
  · constructor
    · rw [stream, moved]
      omega
    · intro alone
      rw [ready]
      exact ⟨by simp, by simp⟩
    · intro inGroup
      rw [ready]
      exact ⟨by simp, by simp⟩

theorem batched_group {world : World} (inGroup : grouped world = true)
    (due : position world < world.stream.length)
    (harmless : BatchUnharmed decode world) :
    Batched decode world (fetch decode (position world) world) := by
  have named := grouped_true.mp inGroup
  have fetched : fetch decode (position world) world =
      xreadgroup decode (position world) world := by
    simp only [fetch, named, if_false]
  simp only [BatchUnharmed, inGroup, if_true] at harmless
  apply batched_past due (stream_fetch _ _) (by rw [server_fetch]; rfl) _ harmless
  rw [position_grouped ((grouped_fetch _ _).trans inGroup), fetched]
  rfl

theorem batch_nonempty {world : World} (due : position world < world.stream.length) :
    (world.stream.drop (position world)).take readCount ≠ [] := by
  intro empty
  have size := congrArg List.length empty
  have readAtLeastOne : 0 < readCount := by decide
  rw [List.length_take, List.length_drop, List.length_nil] at size
  omega

theorem behind_none {entries : List (Fields × Nat)}
    (well : ∀ entry ∈ entries, illFormed decode entry = false) :
    behindIllFormed decode entries = [] := by
  induction entries with
  | nil => rfl
  | cons entry entries ih =>
    have head := well entry List.mem_cons_self
    have rest := ih fun other member => well other (List.mem_cons_of_mem _ member)
    simpa [behindIllFormed, head] using rest

/-- An ill-formed entry keeps the loop from what comes after its batch. -/
theorem sendable_harmed {entries : List (Fields × Nat)} (later : List (Fields × Nat))
    (harmed : ∃ entry ∈ entries, illFormed decode entry = true) :
    (entries ++ later).takeWhile (sendable decode) =
      entries.takeWhile (sendable decode) := by
  induction entries with
  | nil => simp at harmed
  | cons entry entries ih =>
    obtain ⟨bad, member, ill⟩ := harmed
    cases here : illFormed decode entry with
    | true => simp [sendable, here]
    | false =>
      have behind : bad ∈ entries := by
        rcases List.mem_cons.mp member with rfl | behind
        · rw [here] at ill
          cases ill
        · exact behind
      rw [List.cons_append, List.takeWhile_cons, List.takeWhile_cons, ih ⟨bad, behind, ill⟩]

/-- Without a group, a batch that was decoded moves the key to its last entry. -/
theorem batched_alone {world : World} (alone : grouped world = false)
    (due : position world < world.stream.length)
    (well : ∀ entry ∈ batchFrom (position world) world.stream, illFormed decode entry = false) :
    Batched decode world (fetch decode (position world) world) := by
  have ended : (fetch decode (position world) world).server.keyId =
      .after (position world + (batchFrom (position world) world.stream).length - 1) := by
    rw [server_fetch]
    simp only [processStream]
    have last := @process_ends decode world.server
      ((world.stream.drop (position world)).take readCount) (position world) .«$»
      (by rw [← batch_zip]; exact well)
    rw [← batch_zip, if_neg (batch_nonempty due)] at last
    rw [last, batch_zip, List.length_zipIdx]
    rfl
  have ready : (fetch decode (position world) world).server.phase = .ready := by
    rw [server_fetch]
    rfl
  apply batched_past due (stream_fetch _ _) ready
  · rw [position_ready ((grouped_fetch _ _).trans alone) ready, ended]
    have size := batch_length (position world) world.stream
    have readAtLeastOne : 0 < readCount := by decide
    simp only [startOf]
    omega
  · rw [behind_none well]
    rfl

/-- A failed batch read from $ leaves the key there. -/
theorem batched_restart {world : World} (alone : grouped world = false)
    (key : world.server.keyId = .«$») (due : position world < world.stream.length)
    (harmed : ∃ entry ∈ batchFrom (position world) world.stream, illFormed decode entry = true)
    (harmless : (behindIllFormed decode (unread world)).filterMap (messageOf decode) = []) :
    Batched decode world (fetch decode (position world) world) := by
  have ready : (fetch decode (position world) world).server.phase = .ready := by
    rw [server_fetch]
    rfl
  have kept : (fetch decode (position world) world).server.keyId = .«$» := by
    rw [server_fetch]
    simp only [processStream, process_fails world.server harmed, Option.getD_none, key]
  have atEnd : position (fetch decode (position world) world) = world.stream.length := by
    rw [position_ready ((grouped_fetch _ _).trans alone) ready, kept, startOf, stream_fetch]
  have nothing : unread (fetch decode (position world) world) = [] := by
    unfold unread
    rw [atEnd, stream_fetch, entries_from_end]
  have same : (unread world).takeWhile (sendable decode) =
      (batchFrom (position world) world.stream).takeWhile (sendable decode) := by
    unfold unread
    rw [batch_then_rest, sendable_harmed _ harmed]
  constructor
  · rw [nothing, messages_split (unread world), harmless, ← same]
    rfl
  · rw [nothing, unread_length, List.length_nil]
    omega
  · constructor
    · exact Nat.le_of_eq (atEnd.trans (by rw [stream_fetch]))
    · intro _
      rw [ready]
      exact ⟨by simp, by simp⟩
    · intro _
      rw [ready]
      exact ⟨by simp, by simp⟩

theorem batched {world : World} (due : position world < world.stream.length)
    (harmless : BatchUnharmed decode world) :
    Batched decode world (fetch decode (position world) world) := by
  cases mode : grouped world with
  | true => exact batched_group mode due harmless
  | false =>
    by_cases harmed : ∃ entry ∈ batchFrom (position world) world.stream,
        illFormed decode entry = true
    · simp only [BatchUnharmed, mode, Bool.false_eq_true, if_false] at harmless
      cases key : world.server.keyId with
      | «$» =>
        rw [key] at harmless
        exact batched_restart mode key due harmed harmless
      | after entryId =>
        rw [key] at harmless
        obtain ⟨entry, member, ill⟩ := harmed
        have well := harmless entry member
        rw [ill] at well
        cases well
    · apply batched_alone mode due
      intro entry member
      cases ill : illFormed decode entry with
      | false => rfl
      | true => exact absurd ⟨entry, member, ill⟩ harmed

theorem grouped_xadd (fields : Fields) (world : World) :
    grouped (xadd fields world) = grouped world := rfl

theorem xadd_positioned {world : World} (positioned : Positioned world) (fields : Fields) :
    position (xadd fields world) = position world := by
  unfold Positioned at positioned
  cases mode : grouped world with
  | true =>
    simp only [mode, if_true] at positioned
    obtain ⟨start, group⟩ := Option.ne_none_iff_exists'.mp positioned
    simp only [position, grouped_xadd, mode, if_true]
    simp only [xadd, group, Option.getD_some]
  | false =>
    simp only [mode, Bool.false_eq_true, if_false] at positioned
    simp only [position, grouped_xadd, mode, Bool.false_eq_true, if_false]
    cases phase : world.server.phase with
    | blocked start => simp only [xadd, phase]
    | _ =>
      cases key : world.server.keyId with
      | «$» => simp [key, phase] at positioned
      | after entryId => simp only [xadd, phase, key, startOf]

theorem xadd_unpositioned {world : World} (nowhere : ¬ Positioned world) (fields : Fields) :
    position world = world.stream.length ∧
      position (xadd fields world) = (xadd fields world).stream.length := by
  unfold Positioned at nowhere
  cases mode : grouped world with
  | true =>
    simp only [mode, if_true, ne_eq, Decidable.not_not] at nowhere
    simp only [position, grouped_xadd, mode, if_true]
    simp only [xadd, nowhere, Option.getD_none, and_self]
  | false =>
    simp only [mode, Bool.false_eq_true, if_false, not_or, ne_eq, Decidable.not_not,
      not_exists] at nowhere
    obtain ⟨key, waiting⟩ := nowhere
    simp only [position, grouped_xadd, mode, Bool.false_eq_true, if_false]
    cases phase : world.server.phase with
    | blocked start => exact absurd phase (waiting start)
    | _ => simp only [xadd, phase, key, startOf, and_self]

theorem xadd_placed {world : World} (placed : Placed world) (fields : Fields) :
    Placed (xadd fields world) := by
  constructor
  · by_cases positioned : Positioned world
    · rw [xadd_positioned positioned]
      have within := placed.within
      simp only [xadd, List.length_append, List.length_singleton]
      omega
    · exact Nat.le_of_eq (xadd_unpositioned positioned fields).2
  · exact placed.alone
  · exact placed.inGroup

theorem xadd_messages {world : World} (placed : Placed world) {fields : Fields}
    (harmless : messageOf decode (fields, world.stream.length) = none ∨ Positioned world) :
    (unread (xadd fields world)).filterMap (messageOf decode) =
      (unread world ++ [(fields, world.stream.length)]).filterMap (messageOf decode) := by
  by_cases positioned : Positioned world
  · unfold unread
    rw [xadd_positioned positioned]
    simp only [xadd, entries_from_append placed.within]
  · obtain ⟨atEnd, stillAtEnd⟩ := xadd_unpositioned positioned fields
    have silent := harmless.resolve_right positioned
    unfold unread
    rw [atEnd, stillAtEnd, entries_from_end, entries_from_end]
    simp [silent]

/- What a run keeps, from the position that the server started at. -/
structure Kept (decode : String → Option RpcMessage) (start : Nat) (world : World) : Prop where
  placed : Placed world
  within : start ≤ world.stream.length
  inOrder : delivered world ++ (unread world).filterMap (messageOf decode) =
    (entriesFrom start world.stream).filterMap (messageOf decode)

theorem step_kept {start : Nat} {world after : World} {event : Event}
    (kept : Kept decode start world) (allowed : Unharmed decode world event)
    (stepped : step decode world event = some after) : Kept decode start after := by
  cases step_kind kept.placed stepped with
  | append fields =>
    constructor
    · exact xadd_placed kept.placed fields
    · simp only [xadd, List.length_append, List.length_singleton]
      exact Nat.le_succ_of_le kept.within
    · calc delivered (xadd fields world) ++
            (unread (xadd fields world)).filterMap (messageOf decode)
          = delivered world ++
            (unread world ++ [(fields, world.stream.length)]).filterMap (messageOf decode) := by
            rw [xadd_messages kept.placed allowed]
            rfl
        _ = (entriesFrom start world.stream ++ [(fields, world.stream.length)]).filterMap
            (messageOf decode) := by
            rw [List.filterMap_append, ← List.append_assoc, kept.inOrder, List.filterMap_append]
        _ = _ := by rw [← entries_from_append kept.within]; rfl
  | batch _ isRead due =>
    have harmless : BatchUnharmed decode world := by
      rcases isRead with rfl | rfl
      · exact allowed
      · exact allowed
    have read := batched due harmless
    constructor
    · exact read.placed
    · rw [stream_fetch]
      exact kept.within
    · rw [delivered_fetch, List.append_assoc, ← read.messages, stream_fetch]
      exact kept.inOrder
  | quiet _ _ stream sent stays placed _ _ =>
    constructor
    · exact placed
    · rw [stream]
      exact kept.within
    · have same : unread after = unread world := by
        unfold unread
        rw [stays, stream]
      have passed : delivered after = delivered world := by
        unfold delivered
        rw [sent]
      rw [passed, same, stream]
      exact kept.inOrder

/-- While there is something unread, the server is at a read that gets it. -/
theorem read_gets_ahead {world : World} (placed : Placed world) (more : unread world ≠ []) :
    ∃ event after, (event = .read ∨ event = .serve) ∧ step decode world event = some after ∧
      (Unharmed decode world event → (unread after).length < (unread world).length) := by
  have due : position world < world.stream.length := by
    have some := List.length_pos_iff.mpr more
    rw [unread_length] at some
    omega
  cases phase : world.server.phase with
  | ready =>
    refine ⟨.read, _, Or.inl rfl, ?_, fun allowed => (batched due allowed).shorter⟩
    simp only [step, phase, read_due phase due]
  | blocked start =>
    have here := blocked_position placed phase
    subst here
    refine ⟨.serve, _, Or.inr rfl, ?_, fun allowed => (batched due allowed).shorter⟩
    simp only [step, phase, due, if_true, fetch]
  | creating =>
    cases mode : grouped world with
    | false => exact absurd phase (placed.alone mode).1
    | true =>
      rw [position_grouped mode, (placed.inGroup mode).2 phase] at due
      exact absurd due (Nat.lt_irrefl _)

/-- In every run in which no ill-formed entry stands before messages of its batch, is
    read again or stands in a batch read from a known position, and no message is
    appended while the server has no position. -/
theorem stream_delivered {first last : World} (started : Started first)
    (run : Run (step decode) (Unharmed decode) first last) :
    Delivers decode (Unharmed decode) (position first) last := by
  have placed := started_placed started
  have atFirst : Kept decode (position first) first := by
    constructor
    · exact placed
    · exact placed.within
    · unfold delivered
      rw [started.sent]
      rfl
  have kept : Kept decode (position first) last :=
    run_keeps (Kept decode (position first)) atFirst
      (fun _ _ _ held allowed stepped => step_kept held allowed stepped) run
  exact ⟨kept.inOrder, read_gets_ahead kept.placed⟩

/-- Nothing ill-formed is unread, or in a group nothing behind it in its batch. -/
def checked (decode : String → Option RpcMessage) (world : World) : Event → Bool
  | .append fields => (messageOf decode (fields, world.stream.length)).isNone ||
      match grouped world, world.group, world.server.keyId, world.server.phase with
      | true, some _, _, _ => true
      | false, _, .after _, _ => true
      | false, _, _, .blocked _ => true
      | _, _, _, _ => false
  | .read | .serve =>
    if grouped world then (behindIllFormed decode ((unread world).take readCount)).isEmpty
    else (unread world).all fun entry => !illFormed decode entry
  | _ => true

theorem checked_batch {world : World}
    (passed : (if grouped world then
        (behindIllFormed decode ((unread world).take readCount)).isEmpty
      else (unread world).all fun entry => !illFormed decode entry) = true) :
    BatchUnharmed decode world := by
  unfold BatchUnharmed
  cases mode : grouped world with
  | true =>
    simp only [mode, if_true] at passed
    rw [if_pos rfl, List.isEmpty_iff.mp passed]
    rfl
  | false =>
    simp only [mode, Bool.false_eq_true, if_false] at passed
    have well : ∀ entry ∈ unread world, illFormed decode entry = false := by
      intro entry member
      simpa using List.all_eq_true.mp passed entry member
    rw [if_neg (by simp)]
    split
    · intro entry member
      exact well entry (List.mem_of_mem_take member)
    · rw [behind_none well]
      rfl

theorem checked_sound (world : World) (event : Event)
    (passed : checked decode world event = true) : Unharmed decode world event := by
  cases event with
  | append fields =>
    simp only [checked, Bool.or_eq_true] at passed
    rcases passed with silent | positioned
    · exact Or.inl (Option.isNone_iff_eq_none.mp silent)
    · right
      unfold Positioned
      split at positioned
      · rename_i mode group
        simp [mode, group]
      · rename_i mode key
        simp [mode, key]
      · rename_i mode phase _
        simp [mode, phase]
      · cases positioned
  | read => exact checked_batch passed
  | serve => exact checked_batch passed
  | timeout => trivial
  | create => trivial
  | ack entry => trivial

def cancelText : String := "\x7b\"method\":\"cancel\",\"id\":\"a\",\"params\":null\x7d"

def ackText : String := "\x7b\"method\":\"ack\",\"id\":\"a\",\"params\":null\x7d"

def cancelMsg : RpcMessage := ⟨.Cancel, "a", "null"⟩

def ackMsg : RpcMessage := ⟨.Ack, "a", "null"⟩

/-- serde_json on the two texts above and on text that is no JSON. -/
def sample (text : String) : Option RpcMessage :=
  if text = cancelText then some cancelMsg else if text = ackText then some ackMsg else none

/-- A server that has just started to read from $. -/
def listening : World := ⟨[], none, [], ⟨"nebula:proxy:stream", "", .«$», .blocked 0, []⟩⟩

/-- A server that has just started to read for its group. -/
def consuming : World :=
  ⟨[], some 0, [], ⟨"nebula:switchboard:stream", "switchboard", .«$», .ready, []⟩⟩

theorem listening_started : Started listening := by
  constructor
  · rfl
  · intro _
    exact ⟨rfl, rfl⟩
  · intro mode
    cases mode
  · intro mode
    cases mode

theorem consuming_started : Started consuming := by
  constructor
  · rfl
  · intro mode
    cases mode
  · intro _ start group
    cases group
    exact ⟨Nat.le_refl _, rfl⟩
  · intro _ group
    cases group

theorem stream_delivered_sample :
    (∃ last, runWhere (step sample) (checked sample) listening
        [.append ["message", ackText], .serve, .append ["note", "not a message"],
          .append ["message", cancelText], .read] = some last ∧
      delivered last = [(0, ackMsg), (2, cancelMsg)] ∧
      Delivers sample (Unharmed sample) (position listening) last) ∧
    ∃ last, runWhere (step sample) (checked sample) consuming
        [.append ["message", ackText], .append ["message", "garbled"], .read,
          .append ["message", cancelText], .read] = some last ∧
      delivered last = [(0, ackMsg), (2, cancelMsg)] ∧
      Delivers sample (Unharmed sample) (position consuming) last := by
  constructor
  · refine ⟨_, rfl, rfl, ?_⟩
    exact stream_delivered listening_started (run_of_runWhere checked_sound
      [.append ["message", ackText], .serve, .append ["note", "not a message"],
        .append ["message", cancelText], .read] rfl)
  · refine ⟨_, rfl, rfl, ?_⟩
    exact stream_delivered consuming_started (run_of_runWhere checked_sound
      [.append ["message", ackText], .append ["message", "garbled"], .read,
        .append ["message", cancelText], .read] rfl)

/-- A batch that ends in an ill-formed entry is read again and again, what is appended
    after a read from $ has timed out is skipped, and a group loses what stands behind
    an ill-formed entry. -/
theorem repeats_skips_and_loses :
    (∃ last, runAll (step sample) listening
        [.append ["message", ackText], .serve, .append ["message", cancelText],
          .append ["message", "garbled"], .read, .read] = some last ∧
      delivered last = [(0, ackMsg), (1, cancelMsg), (1, cancelMsg)]) ∧
    (∃ last, runAll (step sample) listening
        [.timeout, .append ["message", ackText], .read, .append ["message", cancelText], .serve] =
          some last ∧
      delivered last = [(1, cancelMsg)]) ∧
    (∃ last, runAll (step sample) consuming
        [.append ["message", "garbled"], .append ["message", ackText], .read,
          .append ["message", cancelText], .read] = some last ∧
      delivered last = [(2, cancelMsg)]) ∧
    ¬ ∀ first last, Started first → Reaches (step sample) first last →
      Delivers sample (fun _ _ => True) (position first) last := by
  have repeats : ∃ last, runAll (step sample) listening
      [.append ["message", ackText], .serve, .append ["message", cancelText],
        .append ["message", "garbled"], .read, .read] = some last ∧
      delivered last = [(0, ackMsg), (1, cancelMsg), (1, cancelMsg)] ∧
      (unread last).filterMap (messageOf sample) = [(1, cancelMsg)] ∧
      (entriesFrom 0 last.stream).filterMap (messageOf sample) = [(0, ackMsg), (1, cancelMsg)] :=
    ⟨_, rfl, rfl, rfl, rfl⟩
  obtain ⟨last, ran, passed, left, owed⟩ := repeats
  refine ⟨⟨last, ran, passed⟩, ⟨_, rfl, rfl⟩, ⟨_, rfl, rfl⟩, ?_⟩
  intro always
  have law := (always listening last listening_started (reaches_of_runAll _ ran)).inOrder
  have start : position listening = 0 := rfl
  rw [passed, left, start, owed] at law
  exact absurd (congrArg List.length law) (by decide)

end StreamDelivery
