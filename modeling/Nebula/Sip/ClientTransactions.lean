import Mathlib.Data.List.Infix
import Mathlib.Logic.Equiv.Basic
import Nebula.Sip.Transaction

/- Whether a send opens a transaction of its own. The key is computed from the
   first Via and the new Via is the last one, so the two meet exactly in
   requests that carry no Via yet. -/
namespace ClientTransactions
open Sip Fsm Transaction

/-- A generated branch: the magic cookie and twenty random characters. -/
def Generated (branch : String) : Prop :=
  ∃ random : String, branch = "z9hG4bK" ++ random ∧ random.length = 20

/-- The method a request is filed under. -/
def filedMethod (msg : Message) : Method :=
  match msg.method.getD .INVITE with
  | .ACK => .INVITE
  | method => method

/-- The key of the transaction that belongs to a branch. -/
def ownKey (sha256 : String → String) (branch : String) (msg : Message) : TransactionKey :=
  .new sha256 branch (filedMethod msg) msg.callid .Client

/- The law for one send: its Via is put on top of the ones below it, the record
   of its own key is new and holds the request, and no earlier transaction is in
   the way. -/
structure OpensOwn (sha256 : String → String) (net : Network) (branch : String) (store : Store)
    (msg : Message) : Prop where
  top : ∃ request remote via, outgoing net branch msg = .ok (request, remote) ∧
    request.via = via :: msg.via ∧ via.branch = branch
  absent : store.txs (ownKey sha256 branch msg).redisKey = none
  created : ∃ request remote, outgoing net branch msg = .ok (request, remote) ∧
    (send sha256 net branch store msg).2.txs (ownKey sha256 branch msg).redisKey =
      some ⟨entryState (ownKey sha256 branch msg), addrFields remote, some request.readBack⟩
  returned : ∀ key, (send sha256 net branch store msg).1 = .ok key →
    key = ownKey sha256 branch msg
  unobstructed : (send sha256 net branch store msg).1 ≠ .error .TransactionExist

/-- A request without a Via, with a remote address the transports can reach. -/
def Bare (net : Network) (msg : Message) : Prop :=
  msg.isRequest = true ∧ msg.via = [] ∧
    ∃ uri, msg.remoteUri = some uri ∧
      (net.localUri uri.transport (uri.isProvider.getD false)).isSome

/-- Every send of a run is given a branch of its own, which none of the Vias
    already in its message has. -/
def FreshBranches : List String → List Event → Prop
  | _, [] => True
  | used, .send branch msg :: rest =>
    Generated branch ∧ branch ∉ used ∧ branch ∉ msg.via.map Via.branch ∧
      FreshBranches (branch :: used) rest
  | used, .handleRequest _ :: rest => FreshBranches used rest
  | used, .setState _ _ :: rest => FreshBranches used rest
  | used, .expire _ :: rest => FreshBranches used rest

def AllBare (net : Network) (events : List Event) : Prop :=
  ∀ branch msg, .send branch msg ∈ events → Bare net msg

/-- Every send of a run opens its own transaction. -/
def AllOpenOwn (sha256 : String → String) (net : Network) : Store → List Event → Prop
  | _, [] => True
  | store, event :: rest =>
    (∀ branch msg, event = .send branch msg → OpensOwn sha256 net branch store msg) ∧
      AllOpenOwn sha256 net (step sha256 net store event) rest

theorem resolve_fields (net : Network) (msg : Message) :
    (resolveRemoteUri net msg).via = msg.via ∧
      (resolveRemoteUri net msg).method = msg.method ∧
      (resolveRemoteUri net msg).requestUri = msg.requestUri ∧
      (resolveRemoteUri net msg).callid = msg.callid ∧
      (resolveRemoteUri net msg).remoteUri.map (fun uri => (uri.transport, uri.isProvider)) =
        msg.remoteUri.map (fun uri => (uri.transport, uri.isProvider)) := by
  unfold resolveRemoteUri
  cases remote : msg.remoteUri with
  | none => simp [remote]
  | some uri =>
    by_cases blank : uri.ip = ""
    · simp [blank]
    · simp [blank, remote]

/-- What a request looks like when it goes out. -/
theorem outgoing_fields {net : Network} {branch : String} {msg request : Message} {remote : Uri}
    (sent : outgoing net branch msg = .ok (request, remote)) :
    (∃ via, request.via = msg.via ++ [via] ∧ via.branch = branch) ∧
      request.method = msg.method ∧ request.callid = msg.callid ∧
      request.isRequest = true := by
  obtain ⟨vias, method, target, callid, _⟩ := resolve_fields net msg
  unfold outgoing at sent
  split at sent
  · rename_i asks
    dsimp only at sent
    split at sent
    · cases sent
    · split at sent
      · cases sent
      · cases sent
        refine ⟨?_, method, callid, ?_⟩
        · simp [vias]
        · simpa [Message.isRequest, target] using asks
  · cases sent

/-- A request goes out exactly if its remote address can be reached. -/
theorem outgoing_ok_iff (net : Network) (branch : String) (msg : Message) :
    (∃ request remote, outgoing net branch msg = .ok (request, remote)) ↔
      msg.isRequest = true ∧ ∃ uri, msg.remoteUri = some uri ∧
        (net.localUri uri.transport (uri.isProvider.getD false)).isSome := by
  obtain ⟨_, _, _, _, remotes⟩ := resolve_fields net msg
  by_cases asks : msg.isRequest = true
  · cases own : msg.remoteUri with
    | none =>
      have resolved : (resolveRemoteUri net msg).remoteUri = none := by
        simpa [own] using remotes
      simp [outgoing, asks, resolved]
    | some uri =>
      obtain ⟨remote, resolved, sameHost⟩ :
          ∃ remote, (resolveRemoteUri net msg).remoteUri = some remote ∧
            (remote.transport, remote.isProvider) = (uri.transport, uri.isProvider) := by
        simpa [own] using remotes
      obtain ⟨transport, provider⟩ := Prod.mk.inj sameHost
      simp only [outgoing, asks, resolved, transport, provider, if_true, true_and]
      cases here : net.localUri uri.transport (uri.isProvider.getD false) with
      | none => simp [here]
      | some address => simp [here]
  · simp [outgoing, asks]

/-- The keys of records: server keys, and keys of branches already handed out. -/
def Filed (used : List String) (text : String) : Prop :=
  (∃ front, text = front ++ "Server") ∨
    ∃ branch ∈ used, Generated branch ∧ ∃ back, text = branch ++ back

def Stored (sha256 : String → String) (used : List String) (store : Store) : Prop :=
  ∀ redisKey, store.txs redisKey ≠ none →
    ∃ text, redisKey = "nebula:sip:tx:" ++ sha256 text ∧ Filed used text

theorem filed_mono {used used' : List String} (more : used ⊆ used') {text : String}
    (filed : Filed used text) : Filed used' text := by
  rcases filed with server | ⟨branch, member, rest⟩
  · exact Or.inl server
  · exact Or.inr ⟨branch, more member, rest⟩

theorem generated_length {branch : String} (generated : Generated branch) :
    branch.length = 27 := by
  obtain ⟨random, rfl, twenty⟩ := generated
  rw [String.length_append, twenty]
  rfl

/-- A client key of a new branch is none of the keys on file. -/
theorem own_not_filed {used : List String} {branch back : String} (generated : Generated branch)
    (fresh : branch ∉ used) : ¬ Filed used (branch ++ back ++ "Client") := by
  intro filed
  rcases filed with ⟨front, same⟩ | ⟨other, member, old, back', same⟩
  · have chars : (branch ++ back).toList ++ "Client".toList = front.toList ++ "Server".toList := by
      rw [← String.toList_append, ← String.toList_append, same]
    have six : "Client".toList.length = "Server".toList.length := by
      rw [String.length_toList, String.length_toList]
      decide
    have ends := (List.append_inj' chars six).2
    revert ends
    decide
  · have chars : branch.toList ++ (back ++ "Client").toList = other.toList ++ back'.toList := by
      rw [← String.toList_append, ← String.toList_append, ← same, String.append_assoc]
    have lengths : branch.toList.length = other.toList.length := by
      rw [String.length_toList, String.length_toList, generated_length generated,
        generated_length old]
    have equal := String.toList_injective (List.append_inj chars lengths).1
    exact fresh (equal ▸ member)

theorem own_absent {sha256 : String → String} (collisionFree : Function.Injective sha256)
    {used : List String} {store : Store} (stored : Stored sha256 used store) {branch : String}
    (generated : Generated branch) (fresh : branch ∉ used) (msg : Message) :
    store.txs (ownKey sha256 branch msg).redisKey = none := by
  by_contra taken
  obtain ⟨text, same, filed⟩ := stored _ taken
  have hashes := (String.append_right_inj _).1 same
  have texts := collisionFree hashes
  have notFiled := @own_not_filed used branch ((filedMethod msg).text ++ msg.callid) generated fresh
  rw [← String.append_assoc] at notFiled
  exact notFiled (texts.symm ▸ filed)

theorem stored_of_keys {sha256 : String → String} {used : List String} {before after : Store}
    (stored : Stored sha256 used before)
    (kept : ∀ redisKey, after.txs redisKey ≠ none → before.txs redisKey ≠ none) :
    Stored sha256 used after := by
  intro redisKey present
  exact stored redisKey (kept redisKey present)

theorem create_keys {key : TransactionKey} {uri : Uri} {store created : Store}
    {timers : List (Nat × Input)} (ok : create key uri store = .ok (created, timers))
    (redisKey : String) (present : created.txs redisKey ≠ none) :
    redisKey = key.redisKey ∨ store.txs redisKey ≠ none := by
  unfold create at ok
  split at ok
  · cases ok
  · cases ok
    by_cases same : redisKey = key.redisKey
    · exact Or.inl same
    · right
      simpa [Function.update_of_ne same] using present

theorem setRequest_keys {key : TransactionKey} {request : Message} {store : Store}
    (redisKey : String) (present : (setRequest key request store).txs redisKey ≠ none) :
    store.txs redisKey ≠ none := by
  by_cases same : redisKey = key.redisKey
  · subst same
    simpa [setRequest] using present
  · simpa [setRequest, Function.update_of_ne same] using present

theorem stored_create {sha256 : String → String} {used : List String} {store created : Store}
    {key : TransactionKey} {uri : Uri} {timers : List (Nat × Input)} {text : String}
    (stored : Stored sha256 used store) (ok : create key uri store = .ok (created, timers))
    (encoded : key.redisKey = "nebula:sip:tx:" ++ sha256 text) (filed : Filed used text) :
    Stored sha256 used created := by
  intro redisKey present
  rcases create_keys ok redisKey present with same | old
  · exact ⟨text, same.trans encoded, filed⟩
  · exact stored redisKey old

theorem stored_handleRequest {sha256 : String → String} {used : List String} {store : Store}
    (stored : Stored sha256 used store) (msg : Message) :
    Stored sha256 used (handleRequest sha256 store msg) := by
  unfold handleRequest
  split
  · rename_i key uri keyed _
    split
    · rename_i created _ ok
      unfold getTxKey at keyed
      split at keyed
      · cases keyed
      · cases keyed
        exact stored_create stored ok rfl (Or.inl ⟨_, rfl⟩)
    · exact stored
  · exact stored

theorem stored_setState {sha256 : String → String} {used : List String} {store : Store}
    (stored : Stored sha256 used store) (redisKey : String) (state : State) :
    Stored sha256 used (setState store redisKey state) := by
  apply stored_of_keys stored
  intro other present
  by_cases same : other = redisKey
  · subst same
    simpa [setState] using present
  · simpa [setState, Function.update_of_ne same] using present

theorem stored_expire {sha256 : String → String} {used : List String} {store : Store}
    (stored : Stored sha256 used store) (redisKey : String) :
    Stored sha256 used (expire store redisKey) := by
  apply stored_of_keys stored
  intro other present
  by_cases same : other = redisKey
  · subst same
    simp [expire] at present
  · simpa [expire, Function.update_of_ne same] using present

/-- The key of an outgoing request without earlier Vias is the one of its branch. -/
theorem getTxKey_bare {sha256 : String → String} {net : Network} {branch : String}
    {msg request : Message} {remote : Uri} (bare : msg.via = [])
    (sent : outgoing net branch msg = .ok (request, remote)) :
    getTxKey sha256 request .Client = .ok (ownKey sha256 branch msg) := by
  obtain ⟨⟨via, vias, same⟩, method, callid, asks⟩ := outgoing_fields sent
  unfold getTxKey
  rw [vias, bare]
  simp only [List.nil_append, asks, if_true, same, method, callid]
  rfl

/-- What a send does when its own key is free. -/
theorem send_bare {sha256 : String → String} {net : Network} {branch : String} {store : Store}
    {msg request : Message} {remote : Uri} (bare : msg.via = [])
    (sent : outgoing net branch msg = .ok (request, remote))
    (absent : store.txs (ownKey sha256 branch msg).redisKey = none) :
    ∃ created timers, create (ownKey sha256 branch msg) remote store = .ok (created, timers) ∧
      send sha256 net branch store msg =
        (if net.deliver request then .ok (ownKey sha256 branch msg) else .error .TransportFailed,
          setRequest (ownKey sha256 branch msg) request created) := by
  unfold send
  simp only [sent, getTxKey_bare bare sent]
  unfold create
  simp only [absent]
  exact ⟨_, _, rfl, rfl⟩

theorem opensOwn_of_bare {sha256 : String → String} {net : Network} {branch : String}
    {store : Store} {msg : Message} (bare : Bare net msg)
    (absent : store.txs (ownKey sha256 branch msg).redisKey = none) :
    OpensOwn sha256 net branch store msg := by
  obtain ⟨asks, noVia, reachable⟩ := bare
  obtain ⟨request, remote, sent⟩ := (outgoing_ok_iff net branch msg).2 ⟨asks, reachable⟩
  obtain ⟨created, timers, ok, run⟩ := send_bare noVia sent absent
  obtain ⟨⟨via, vias, same⟩, _⟩ := outgoing_fields sent
  constructor
  · exact ⟨request, remote, via, sent, by rw [vias, noVia]; rfl, same⟩
  · exact absent
  · rw [run]
    unfold create at ok
    simp only [absent] at ok
    cases ok
    refine ⟨request, remote, sent, ?_⟩
    simp only [setRequest, Function.update_self, Option.map_some]
  · intro key returned
    rw [run] at returned
    by_cases delivered : net.deliver request = true
    · simp only [delivered, if_true, Except.ok.injEq] at returned
      exact returned.symm
    · simp [delivered] at returned
  · rw [run]
    by_cases delivered : net.deliver request = true
    · simp [delivered]
    · simp [delivered]

theorem bare_of_opensOwn {sha256 : String → String} {net : Network} {branch : String}
    {store : Store} {msg : Message} (unused : branch ∉ msg.via.map Via.branch)
    (opens : OpensOwn sha256 net branch store msg) : Bare net msg := by
  obtain ⟨request, remote, top, sent, onTop, named⟩ := opens.top
  obtain ⟨⟨via, atEnd, same⟩, _⟩ := outgoing_fields sent
  obtain ⟨asks, reachable⟩ := (outgoing_ok_iff net branch msg).1 ⟨request, remote, sent⟩
  refine ⟨asks, ?_, reachable⟩
  cases earlier : msg.via with
  | nil => rfl
  | cons first others =>
    exfalso
    rw [earlier] at onTop atEnd unused
    have heads := (List.cons.inj (onTop.symm.trans atEnd)).1
    apply unused
    rw [← named, heads]
    exact List.mem_map_of_mem (List.mem_cons_self)

/-- A send stores at most the record of its own key, if its request is bare. -/
theorem stored_send {sha256 : String → String} {net : Network} {used : List String}
    {store : Store} {branch : String} {msg : Message} (stored : Stored sha256 used store)
    (generated : Generated branch) (bare : Bare net msg)
    (absent : store.txs (ownKey sha256 branch msg).redisKey = none) :
    Stored sha256 (branch :: used) (send sha256 net branch store msg).2 := by
  obtain ⟨asks, noVia, reachable⟩ := bare
  obtain ⟨request, remote, sent⟩ := (outgoing_ok_iff net branch msg).2 ⟨asks, reachable⟩
  obtain ⟨created, timers, ok, run⟩ := send_bare noVia sent absent
  have widened : Stored sha256 (branch :: used) store := by
    intro redisKey present
    obtain ⟨text, same, filed⟩ := stored redisKey present
    exact ⟨text, same, filed_mono (List.subset_cons_self _ _) filed⟩
  rw [run]
  have opened : Stored sha256 (branch :: used) created := by
    apply stored_create widened ok rfl
    right
    refine ⟨branch, List.mem_cons_self, generated, ?_⟩
    exact ⟨_, by rw [String.append_assoc, String.append_assoc]⟩
  exact stored_of_keys opened setRequest_keys

theorem allOpenOwn_of_bare {sha256 : String → String} (collisionFree : Function.Injective sha256)
    (net : Network) (events : List Event) : ∀ (used : List String) (store : Store),
    Stored sha256 used store → FreshBranches used events → AllBare net events →
      AllOpenOwn sha256 net store events := by
  induction events with
  | nil => intro _ _ _ _ _; trivial
  | cons event rest ih =>
    intro used store stored fresh bare
    have later : AllBare net rest := by
      intro branch msg member
      exact bare branch msg (List.mem_cons_of_mem _ member)
    cases event with
    | send branch msg =>
      obtain ⟨generated, unused, _, others⟩ := fresh
      have absent := own_absent collisionFree stored generated unused msg
      have own := bare branch msg List.mem_cons_self
      constructor
      · intro branch' msg' same
        cases same
        exact opensOwn_of_bare own absent
      · exact ih _ _ (stored_send stored generated own absent) others later
    | handleRequest msg =>
      constructor
      · intro _ _ same
        cases same
      · exact ih _ _ (stored_handleRequest stored msg) fresh later
    | setState redisKey state =>
      constructor
      · intro _ _ same
        cases same
      · exact ih _ _ (stored_setState stored redisKey state) fresh later
    | expire redisKey =>
      constructor
      · intro _ _ same
        cases same
      · exact ih _ _ (stored_expire stored redisKey) fresh later

theorem allBare_of_openOwn {sha256 : String → String} (net : Network) (events : List Event) :
    ∀ (used : List String) (store : Store), FreshBranches used events →
      AllOpenOwn sha256 net store events → AllBare net events := by
  induction events with
  | nil =>
    intro _ _ _ _ branch msg member
    cases member
  | cons event rest ih =>
    intro used store fresh opens branch msg member
    have others : ∃ used', FreshBranches used' rest := by
      cases event with
      | send branch msg => exact ⟨_, fresh.2.2.2⟩
      | handleRequest msg => exact ⟨_, fresh⟩
      | setState redisKey state => exact ⟨_, fresh⟩
      | expire redisKey => exact ⟨_, fresh⟩
    obtain ⟨used', fresh'⟩ := others
    rcases List.mem_cons.1 member with first | later
    · subst first
      exact bare_of_opensOwn fresh.2.2.1 (opens.1 branch msg rfl)
    · exact ih used' _ fresh' opens.2 branch msg later

/- For every run of sends, received requests and ending transactions: all sends
   open their own transaction exactly when all requests are bare. -/
theorem sends_open_own_iff_bare (sha256 : String → String)
    (collisionFree : Function.Injective sha256) (net : Network) (events : List Event)
    (fresh : FreshBranches [] events) :
    AllOpenOwn sha256 net Store.empty events ↔ AllBare net events := by
  constructor
  · exact allBare_of_openOwn net events [] Store.empty fresh
  · intro bare
    apply allOpenOwn_of_bare collisionFree net events [] Store.empty _ fresh bare
    intro redisKey present
    exact absurd rfl present

def sampleNetwork : Network where
  localUri := fun transport _ =>
    if transport = .Udp then some { host := "10.0.0.1", port := some 5060 } else none
  lookupHost := fun _ => none
  deliver := fun _ => true

/-- The hash with the digest of the one text that the sample run asks for. -/
def sampleSha256 : String → String :=
  Equiv.swap "z9hG4bKaaaaaaaaaaaaaaaaaaaaINVITEc1Client"
    "fb83c8c2ce1bb5a7f60475d2fb5e39996c6f0a7d01adbb37450803996eeba085"

def sampleInvite : Message :=
  { method := some .INVITE
    requestUri := some { user := some "1002", host := "203.0.113.7" }
    callid := "c1"
    cseq := ⟨1, .INVITE⟩
    remoteUri := some { host := "203.0.113.7", ip := "203.0.113.7" } }

/-- What the record of the first send keeps of it. -/
def sampleStored : Message :=
  { method := some .INVITE
    requestUri := some { user := some "1002", host := "203.0.113.7" }
    via := [{ host := "10.0.0.1", port := some 5060, branch := "z9hG4bKaaaaaaaaaaaaaaaaaaaa" }]
    contact := some { uri := { user := some "nebula", host := "10.0.0.1", port := some 5060 } }
    callid := "c1"
    cseq := ⟨1, .INVITE⟩ }

theorem sends_open_own_sample :
    AllOpenOwn sampleSha256 sampleNetwork Store.empty
      [.send "z9hG4bKaaaaaaaaaaaaaaaaaaaa" sampleInvite] := by
  have fresh : FreshBranches [] [.send "z9hG4bKaaaaaaaaaaaaaaaaaaaa" sampleInvite] :=
    ⟨⟨"aaaaaaaaaaaaaaaaaaaa", by decide +kernel, by decide +kernel⟩, by simp, by
      simp [sampleInvite], trivial⟩
  apply (sends_open_own_iff_bare sampleSha256 (Equiv.injective _) sampleNetwork _ fresh).2
  intro branch msg member
  cases List.mem_singleton.1 member
  exact ⟨rfl, rfl, _, rfl, rfl⟩

/- The retry of a challenged INVITE. Read back from its record it has no address
   to go to; with the address put back it meets its own first transaction. -/
theorem retry_obstructed :
    getRequest (ownKey sampleSha256 "z9hG4bKaaaaaaaaaaaaaaaaaaaa" sampleInvite)
        (send sampleSha256 sampleNetwork "z9hG4bKaaaaaaaaaaaaaaaaaaaa" Store.empty
          sampleInvite).2 = some sampleStored ∧
      (send sampleSha256 sampleNetwork "z9hG4bKbbbbbbbbbbbbbbbbbbbb"
        (send sampleSha256 sampleNetwork "z9hG4bKaaaaaaaaaaaaaaaaaaaa" Store.empty sampleInvite).2
        { sampleStored with cseq := ⟨2, .INVITE⟩ }).1 = .error .AddrInvalid ∧
      (send sampleSha256 sampleNetwork "z9hG4bKbbbbbbbbbbbbbbbbbbbb"
        (send sampleSha256 sampleNetwork "z9hG4bKaaaaaaaaaaaaaaaaaaaa" Store.empty sampleInvite).2
        { sampleStored with
          cseq := ⟨2, .INVITE⟩
          remoteUri := sampleInvite.remoteUri }).1 = .error .TransactionExist ∧
      ¬ ∀ events, FreshBranches [] events →
        AllOpenOwn sampleSha256 sampleNetwork Store.empty events := by
  have obstructed : (send sampleSha256 sampleNetwork "z9hG4bKbbbbbbbbbbbbbbbbbbbb"
      (send sampleSha256 sampleNetwork "z9hG4bKaaaaaaaaaaaaaaaaaaaa" Store.empty sampleInvite).2
      { sampleStored with
        cseq := ⟨2, .INVITE⟩
        remoteUri := sampleInvite.remoteUri }).1 = .error .TransactionExist := by
    decide +kernel
  refine ⟨by decide +kernel, by decide +kernel, obstructed, ?_⟩
  intro always
  have opens := always
    [.send "z9hG4bKaaaaaaaaaaaaaaaaaaaa" sampleInvite,
      .send "z9hG4bKbbbbbbbbbbbbbbbbbbbb"
        { sampleStored with
          cseq := ⟨2, .INVITE⟩
          remoteUri := sampleInvite.remoteUri }]
    ⟨⟨"aaaaaaaaaaaaaaaaaaaa", by decide +kernel, by decide +kernel⟩, by simp, by
        simp [sampleInvite],
      ⟨"bbbbbbbbbbbbbbbbbbbb", by decide +kernel, by decide +kernel⟩, by decide +kernel,
        by decide +kernel, trivial⟩
  exact (opens.2.1 _ _ rfl).unobstructed obstructed

end ClientTransactions
