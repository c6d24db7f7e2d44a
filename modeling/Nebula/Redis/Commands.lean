import Mathlib.Data.Finmap
import Mathlib.Data.Finset.Insert
import Mathlib.Data.List.Basic

/- The commands that the pool sends to every zone, and what a Redis server makes of each of
   them on its key. A fresh stream has groups and no entries: entries are not replicated. -/
namespace RedisCommands

inductive Value where
  | string (text : String)
  | hash (fields : Finmap fun _ : String => String)
  | list (elements : List String)
  | set (members : Finset String)
  | zset (scores : Finmap fun _ : String => Int)
  | stream (groups : Finset String)

def Value.same : Value → Value → Bool
  | .string one, .string other => one = other
  | .hash one, .hash other => one = other
  | .list one, .list other => one = other
  | .set one, .set other => one = other
  | .zset one, .zset other => one = other
  | .stream one, .stream other => one = other
  | _, _ => false

-- The derived instance would rewrite along equations of sets, which does not compute.
instance : DecidableEq Value := fun one other =>
  decidable_of_iff (one.same other = true) (by cases one <;> cases other <;> simp [Value.same])

inductive Reply where
  | ok
  | int (n : Int)
  | data (text : String)
  | nil
  | error
  deriving DecidableEq

/-- What becomes of the time that a key has left. -/
inductive Ttl where
  | keep
  | clear
  | ends (deadline : Nat)
  deriving DecidableEq

structure Effect where
  reply : Reply
  value : Option Value
  ttl : Ttl := .keep

def Effect.failed (value : Option Value) : Effect := { reply := .error, value := value }

/-- A script stops at a call that fails. -/
def Effect.andThen (first : Effect) (next : Option Value → Effect) : Effect :=
  match first.reply with
  | .error => first
  | _ =>
    let second := next first.value
    { second with ttl :=
        match second.ttl with
        | .keep => first.ttl
        | ttl => ttl }

/-- What a script returns in place of the reply of its last call. -/
def Effect.returns (effect : Effect) (reply : Reply) : Effect :=
  match effect.reply with
  | .error => effect
  | _ => { effect with reply := reply }

def I64_MAX : Int := 9223372036854775807

/-- An integer as Redis writes it. -/
def parseInt (text : String) : Option Int :=
  match text.toInt? with
  | some n => if toString n = text ∧ -I64_MAX - 1 ≤ n ∧ n ≤ I64_MAX then some n else none
  | none => none

def added (current n : Int) : Option Int :=
  if -I64_MAX - 1 ≤ current + n ∧ current + n ≤ I64_MAX then some (current + n) else none

/-- A score as a double: 53 bits of an integer, ties to even. -/
def toDouble (n : Int) : Int :=
  let size := n.natAbs
  let unit := 2 ^ (size.log2 - 52)
  let down := size / unit
  let left := size % unit
  let rounded :=
    if unit < 2 * left ∨ (unit = 2 * left ∧ down % 2 = 1) then down + 1 else down
  n.sign * ((rounded * unit : Nat) : Int)

section
variable (now : Nat) (value : Option Value)

def onHash (f : (Finmap fun _ : String => String) → Effect) : Effect :=
  match value with
  | none => f ∅
  | some (.hash fields) => f fields
  | some _ => .failed value

def onList (f : List String → Effect) : Effect :=
  match value with
  | none => f []
  | some (.list elements) => f elements
  | some _ => .failed value

def onSet (f : Finset String → Effect) : Effect :=
  match value with
  | none => f ∅
  | some (.set members) => f members
  | some _ => .failed value

def onZset (f : (Finmap fun _ : String => Int) → Effect) : Effect :=
  match value with
  | none => f ∅
  | some (.zset scores) => f scores
  | some _ => .failed value

/-- A key without elements is gone. -/
def listOf (elements : List String) : Option Value :=
  if elements = [] then none else some (.list elements)

def HSET (pairs : List (String × String)) : Effect :=
  if pairs = [] then .failed value
  else onHash value fun fields =>
    let after := pairs.foldl (fun fields pair => fields.insert pair.1 pair.2) fields
    { reply := .int (after.keys.card - fields.keys.card), value := some (.hash after) }

def HSETNX (field text : String) : Effect :=
  onHash value fun fields =>
    match fields.lookup field with
    | some _ => { reply := .int 0, value := value }
    | none => { reply := .int 1, value := some (.hash (fields.insert field text)) }

def HDEL (field : String) : Effect :=
  onHash value fun fields =>
    match fields.lookup field with
    | some _ =>
      { reply := .int 1
        value := if fields.erase field = ∅ then none else some (.hash (fields.erase field)) }
    | none => { reply := .int 0, value := value }

def HINCRBY (field : String) (n : Int) : Effect :=
  onHash value fun fields =>
    match ((fields.lookup field).elim (some 0) parseInt).bind (added · n) with
    | some sum => { reply := .int sum, value := some (.hash (fields.insert field (toString sum))) }
    | none => .failed value

def SREM (member : String) : Effect :=
  onSet value fun members =>
    if member ∈ members then
      { reply := .int 1
        value := if members.erase member = ∅ then none else some (.set (members.erase member)) }
    else { reply := .int 0, value := value }

def SADD (member : String) : Effect :=
  onSet value fun members =>
    { reply := .int (if member ∈ members then 0 else 1), value := some (.set (insert member members)) }

/-- An index from the end counts back from the length, but not past the start. -/
def LTRIM (first last : Int) : Effect :=
  onList value fun elements =>
    let length : Int := elements.length
    let first := if first < 0 then max (length + first) 0 else first
    let last := if last < 0 then length + last else last
    { reply := .ok, value := listOf ((elements.take (last + 1).toNat).drop first.toNat) }

def LPOP : Effect :=
  onList value fun elements =>
    match elements with
    | [] => { reply := .nil, value := value }
    | first :: rest => { reply := .data first, value := listOf rest }

def LPUSH (element : String) : Effect :=
  onList value fun elements =>
    { reply := .int (elements.length + 1), value := some (.list (element :: elements)) }

def RPUSH (element : String) : Effect :=
  onList value fun elements =>
    { reply := .int (elements.length + 1), value := some (.list (elements ++ [element])) }

/-- The first `count` that are equal to the element, or all of them for a count of zero. -/
def removeFirst (element : String) : Nat → List String → List String
  | _, [] => []
  | count, first :: rest =>
    if first = element then
      match count with
      | 0 => removeFirst element 0 rest
      | 1 => rest
      | count + 1 => removeFirst element count rest
    else first :: removeFirst element count rest

def LREM (count : Nat) (element : String) : Effect :=
  if I64_MAX < count then .failed value
  else onList value fun elements =>
    let after := removeFirst element count elements
    { reply := .int (elements.length - after.length), value := listOf after }

def ZADD (score : Int) (member : String) : Effect :=
  onZset value fun scores =>
    { reply := .int (match scores.lookup member with | some _ => 0 | none => 1)
      value := some (.zset (scores.insert member (toDouble score))) }

def ZREM (member : String) : Effect :=
  onZset value fun scores =>
    match scores.lookup member with
    | some _ =>
      { reply := .int 1
        value := if scores.erase member = ∅ then none else some (.zset (scores.erase member)) }
    | none => { reply := .int 0, value := value }

def GET : Effect :=
  match value with
  | none => { reply := .nil, value := value }
  | some (.string text) => { reply := .data text, value := value }
  | some _ => .failed value

def SET (text : String) : Effect :=
  { reply := .ok, value := some (.string text), ttl := .clear }

def GETSET (text : String) : Effect :=
  (GET value).andThen fun _ =>
    { reply := (GET value).reply, value := some (.string text), ttl := .clear }

def INCRBY (n : Nat) : Effect :=
  if I64_MAX < n then .failed value
  else
    match value with
    | none => { reply := .int n, value := some (.string (toString n)) }
    | some (.string text) =>
      match (parseInt text).bind (added · n) with
      | some sum => { reply := .int sum, value := some (.string (toString sum)) }
      | none => .failed value
    | some _ => .failed value

def DEL : Effect :=
  { reply := .int (if value = none then 0 else 1), value := none }

/-- A time to live has to be positive and to end within 64 bits. -/
def setUntil (ms : Nat) (text : String) : Effect :=
  if 0 < ms ∧ ((now + ms : Nat) : Int) ≤ I64_MAX then
    { reply := .ok, value := some (.string text), ttl := .ends (now + ms) }
  else .failed value

def SETEX (expire : Nat) (text : String) : Effect := setUntil now value (expire * 1000) text

def SETNX (text : String) : Effect :=
  match value with
  | none => { reply := .int 1, value := some (.string text) }
  | some _ => { reply := .int 0, value := value }

/-- `SET` with `EX` or `PX`, and `NX`. -/
def SET_NX (ms : Nat) (text : String) : Effect :=
  match (setUntil now value ms text).reply, value with
  | .ok, some _ => { reply := .nil, value := value }
  | _, _ => setUntil now value ms text

/-- A time that is over deletes the key. -/
def EXPIRE (seconds : Int) : Effect :=
  if I64_MAX < now + seconds * 1000 then .failed value
  else
    match value with
    | none => { reply := .int 0, value := none }
    | some present =>
      if seconds ≤ 0 then { reply := .int 1, value := none }
      else { reply := .int 1, value := some present, ttl := .ends (now + seconds.toNat * 1000) }

/-- `XGROUP CREATE` with `$` and `MKSTREAM`. -/
def XGROUP (group : String) : Effect :=
  match value with
  | none => { reply := .ok, value := some (.stream {group}) }
  | some (.stream groups) =>
    if group ∈ groups then .failed value
    else { reply := .ok, value := some (.stream (insert group groups)) }
  | some _ => .failed value

end

/-- The commands of the pool with `replicate` set, with what they are called with. The type
    that `getset` is read as is given by the replies that it takes. -/
inductive Command where
  | xgroup_create (group : String)
  | hsetnx (field value : String)
  | hmset (pairs : List (String × String))
  | hmset_nx_ex (expire : Int) (pairs : List (String × String))
  | hdel (field : String)
  | hset (field value : String)
  | hsetex (field value : String)
  | hset_key_ex_field_nx (field value : String)
  | hincrby_key_exits (field : String)
  | srem (member : String)
  | sadd (member : String)
  | ltrim (first last : Int)
  | lpop
  | lpush (value : String)
  | rpush (element : String)
  | lrem (num : Nat) (value : String)
  | zadd (score : Int) (member : String)
  | zrem (member : String)
  | getset (value : String) (readable : Reply → Bool)
  | set (value : String)
  | incr
  | incr_by (n : Nat)
  | del
  | del_if_value (value : String)
  | setex (expire : Nat) (value : String)
  | setnx (value : String)
  | setexnx_or_eq (value : String) (expire : Nat)
  | get_and_ex (expire : Nat)
  | set_or_ex (value : String) (expire : Nat)
  | setexnx (value : String) (expire : Nat)
  | setpxnx (value : String) (expire : Nat)
  | expire (seconds : Nat)

namespace Command

def exec (now : Nat) (value : Option Value) : Command → Effect
  | xgroup_create group => XGROUP value group
  | hsetnx field text => HSETNX value field text
  | hmset pairs => HSET value pairs
  | hmset_nx_ex seconds pairs =>
    match value with
    | none => (((HSET value pairs).andThen fun value => EXPIRE now value seconds).returns (.int 1))
    | some _ => (EXPIRE now value seconds).returns (.int 0)
  | hdel field => HDEL value field
  | hset field text => HSET value [(field, text)]
  | hsetex field text =>
    match value with
    | some _ => (HSET value [(field, text)]).returns (.int 1)
    | none => { reply := .int 0, value := value }
  | hset_key_ex_field_nx field text =>
    match value with
    | some _ => HSETNX value field text
    | none => { reply := .int 0, value := value }
  | hincrby_key_exits field =>
    match value with
    | some _ => HINCRBY value field 1
    | none => { reply := .int 0, value := value }
  | srem member => SREM value member
  | sadd member => SADD value member
  | ltrim first last => LTRIM value first last
  | lpop => LPOP value
  | lpush text => LPUSH value text
  | rpush element => RPUSH value element
  | lrem num text => LREM value num text
  | zadd score member => ZADD value score member
  | zrem member => ZREM value member
  | getset text _ => GETSET value text
  | set text => SET text
  | incr => INCRBY value 1
  | incr_by n => INCRBY value n
  | del => DEL value
  | del_if_value text =>
    (GET value).andThen fun _ =>
      if (GET value).reply = .data text then (DEL value).returns (.int 1)
      else { reply := .int 0, value := value }
  | setex seconds text => SETEX now value seconds text
  | setnx text => SETNX value text
  | setexnx_or_eq text seconds =>
    match value with
    | none => (SETEX now value seconds text).returns (.int 1)
    | some _ =>
      (GET value).andThen fun _ =>
        if (GET value).reply = .data text then (EXPIRE now value seconds).returns (.int 1)
        else { reply := .int 0, value := value }
  | get_and_ex seconds =>
    match value with
    | none => { reply := .nil, value := value }
    | some _ => (EXPIRE now value seconds).andThen GET
  | set_or_ex text seconds =>
    match value with
    | none => (SETEX now value seconds text).returns (.data text)
    | some _ => (EXPIRE now value seconds).andThen GET
  | setexnx text seconds => SET_NX now value (seconds * 1000) text
  | setpxnx text ms => SET_NX now value ms text
  | expire seconds => EXPIRE now value seconds

/-- Whether the reply reads as a number, as a flag or as a text. -/
def isNumber : Reply → Bool
  | .int _ => true
  | _ => false

def isFlag : Reply → Bool
  | .int _ | .ok | .nil => true
  | _ => false

def isText : Reply → Bool
  | .ok | .data _ => true
  | _ => false

/-- Whether the result of the query is `Ok`, so that the command goes to the other zones. -/
def readable : Command → Reply → Bool
  | getset _ readable => fun reply => reply ≠ .error && readable reply
  | hsetnx .. | hmset_nx_ex .. | hsetex .. | hset_key_ex_field_nx .. | ltrim .. | del_if_value ..
  | setnx .. | setexnx_or_eq .. | expire .. => isFlag
  | xgroup_create .. | lpop | set .. | setex .. | get_and_ex .. | set_or_ex .. | setexnx ..
  | setpxnx .. => isText
  | _ => isNumber

end Command

/-- A time to live that is set has not run out yet. -/
def Effect.Ahead (now : Nat) (effect : Effect) : Prop :=
  ∀ deadline, effect.ttl = .ends deadline → now < deadline

section
variable {now : Nat} {value : Option Value}

theorem ahead_andThen {first : Effect} {next : Option Value → Effect} (one : first.Ahead now)
    (other : ∀ value, (next value).Ahead now) : (first.andThen next).Ahead now := by
  unfold Effect.andThen
  split
  · exact one
  · intro deadline ends
    dsimp only at ends
    split at ends
    · exact one deadline ends
    · exact other first.value deadline ends

theorem ahead_returns {effect : Effect} (ahead : effect.Ahead now) (reply : Reply) :
    (effect.returns reply).Ahead now := by
  unfold Effect.returns
  split <;> exact ahead

theorem ahead_get (value : Option Value) : (GET value).Ahead now := by
  intro deadline ends
  unfold GET at ends
  split at ends <;> cases ends

theorem ahead_hset (value : Option Value) (pairs : List (String × String)) :
    (HSET value pairs).Ahead now := by
  intro deadline ends
  unfold HSET onHash at ends
  repeat' split at ends
  all_goals cases ends

theorem ahead_setUntil (value : Option Value) (ms : Nat) (text : String) :
    (setUntil now value ms text).Ahead now := by
  intro deadline ends
  unfold setUntil at ends
  split at ends
  · cases ends
    omega
  · cases ends

theorem ahead_expire (value : Option Value) (seconds : Int) :
    (EXPIRE now value seconds).Ahead now := by
  intro deadline ends
  unfold EXPIRE at ends
  repeat' split at ends
  · cases ends
  · cases ends
  · cases ends
  · cases ends
    omega

/-- The commands that set a time to live are gone through by name, the others set none. -/
theorem exec_ahead (now : Nat) (value : Option Value) (command : Command) :
    (command.exec now value).Ahead now := by
  cases command with
  | hmset_nx_ex seconds pairs =>
    cases value with
    | none =>
      exact ahead_returns (ahead_andThen (ahead_hset none pairs)
        fun value => ahead_expire value seconds) _
    | some present => exact ahead_returns (ahead_expire _ seconds) _
  | hsetex field text =>
    cases value with
    | none => exact fun _ ends => Ttl.noConfusion ends
    | some present => exact ahead_returns (ahead_hset _ _) _
  | setex seconds text => exact ahead_setUntil value _ text
  | setexnx_or_eq text seconds =>
    cases value with
    | none => exact ahead_returns (ahead_setUntil none _ text) _
    | some present =>
      apply ahead_andThen (ahead_get _)
      intro _
      split
      · exact ahead_returns (ahead_expire _ seconds) _
      · exact fun _ ends => Ttl.noConfusion ends
  | get_and_ex seconds =>
    cases value with
    | none => exact fun _ ends => Ttl.noConfusion ends
    | some present => exact ahead_andThen (ahead_expire _ seconds) ahead_get
  | set_or_ex text seconds =>
    cases value with
    | none => exact ahead_returns (ahead_setUntil none _ text) _
    | some present => exact ahead_andThen (ahead_expire _ seconds) ahead_get
  | setexnx text seconds =>
    dsimp only [Command.exec, SET_NX]
    split
    · exact fun _ ends => Ttl.noConfusion ends
    · exact ahead_setUntil _ _ text
  | setpxnx text ms =>
    dsimp only [Command.exec, SET_NX]
    split
    · exact fun _ ends => Ttl.noConfusion ends
    · exact ahead_setUntil _ _ text
  | expire seconds => exact ahead_expire value seconds
  | getset text readable =>
    apply ahead_andThen (ahead_get value)
    exact fun _ _ ends => Ttl.noConfusion ends
  | del_if_value text =>
    apply ahead_andThen (ahead_get value)
    intro _
    split <;> exact fun _ ends => Ttl.noConfusion ends
  | _ =>
    intro deadline ends
    simp only [Command.exec, XGROUP, HSETNX, HSET, HDEL, HINCRBY, SREM, SADD, LTRIM, LPOP, LPUSH,
      RPUSH, LREM, ZADD, ZREM, SET, INCRBY, DEL, SETNX, onHash, onList, onSet, onZset] at ends
    repeat' split at ends
    all_goals cases ends

end

end RedisCommands
