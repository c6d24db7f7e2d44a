import Mathlib.Tactic.Common

/- The monitor that hangs up channels without media. Times are seconds that several machines have
   written, durations are their unsigned differences. -/
namespace InactivityMonitor

section Model

inductive MediaMode where
  | Inactive
  | Sendonly
  | Recvonly
  | Sendrecv
  deriving DecidableEq

def MediaMode.text : MediaMode → String
  | .Inactive => "inactive"
  | .Sendonly => "sendonly"
  | .Recvonly => "recvonly"
  | .Sendrecv => "sendrecv"

def MediaMode.fromStr (s : String) : Option MediaMode :=
  [.Inactive, .Sendonly, .Recvonly, .Sendrecv].find? fun mode => mode.text = s

/-- Whether there is a transfer or a callback, and the time of the start. -/
structure CallContext where
  transfer : Bool
  callback : Bool
  startedAt : Int

/-- What can be read of a channel. -/
structure Channel where
  isHangup : Bool
  isAnswered : Bool
  mode : Option String
  lastRtpPacket : Option UInt64
  lastModeChange : Option UInt64
  callContext : Option CallContext

inductive Action where
  | kept
  | removed
  | hangup
  deriving DecidableEq

inductive Stop where
  | error
  | panicked
  deriving DecidableEq

variable (checks : Bool) (ctime : UInt64) (now : Int) (channel : Channel)

/-- A difference below zero is a panic in a build with overflow checks, and wraps in one without. -/
def difference (first second : UInt64) : Except Stop UInt64 :=
  if checks && first < second then .error .panicked else .ok (first - second)

def mediaMode : MediaMode := (MediaMode.fromStr (channel.mode.getD "")).getD .Sendrecv

/-- The reasons to leave a channel alone for longer. -/
def excused (duration : UInt64) : Bool :=
  mediaMode channel ≠ .Sendrecv && duration < 3600 * 3 ||
    channel.callContext.any fun context =>
      context.transfer && duration < 60 * 60 * 24 || context.callback && duration < 60 * 60 * 24

/-- A channel whose mode has changed of late is kept. -/
def hangupUnlessChanged : Except Stop Action :=
  match channel.lastModeChange with
  | none => .ok .hangup
  | some lastModeChange => do
    let since ← difference checks ctime lastModeChange
    if since < 180 then .ok .kept else .ok .hangup

def monitorAnswered : Except Stop Action :=
  match channel.lastRtpPacket with
  | none => .error .error
  | some lastReceivedTime => do
    let duration ← difference checks ctime lastReceivedTime
    if duration > 60 * 3 then
      if excused channel duration then .ok .kept else hangupUnlessChanged checks ctime channel
    else .ok .kept

def monitorUnanswered : Except Stop Action :=
  match channel.callContext with
  | none => .error .error
  | some context => if now - context.startedAt > 60 * 5 then .ok .hangup else .ok .kept

def monitorChannel : Except Stop Action :=
  if channel.isHangup then .ok .removed
  else if channel.isAnswered then monitorAnswered checks ctime channel
  else monitorUnanswered now channel

inductive Outcome where
  | done (action : Action)
  | deleted
  | panicked
  deriving DecidableEq

/-- A channel that cannot be monitored is deleted; a panic ends the task of the channel. -/
def oneMonitor : Outcome :=
  match monitorChannel checks ctime now channel with
  | .ok action => .done action
  | .error .error => .deleted
  | .error .panicked => .panicked

end Model

section Claimed
variable (ctime : UInt64) (now : Int) (channel : Channel)

/-- How long ago a time is, below zero for a time ahead. -/
def ago (time : UInt64) : Int := (ctime.toNat : Int) - time.toNat

/-- The last packet and the last change of mode are long past. -/
structure Inactive (lastReceivedTime : UInt64) : Prop where
  packet : ago ctime lastReceivedTime > 180
  modeChange : ∀ lastModeChange ∈ channel.lastModeChange, ago ctime lastModeChange ≥ 180
  moved : ∀ context ∈ channel.callContext, context.transfer ∨ context.callback →
    ago ctime lastReceivedTime ≥ 24 * 3600
  hold : mediaMode channel ≠ .Sendrecv → ago ctime lastReceivedTime ≥ 3 * 3600

/-- No subtraction goes below zero, and an answered channel that is hung up is inactive, in either
    build. -/
structure Safe : Prop where
  noUnderflow : oneMonitor true ctime now channel ≠ .panicked
  inactive : ∀ checks, channel.isAnswered →
    oneMonitor checks ctime now channel = .done .hangup →
    ∃ lastReceivedTime ∈ channel.lastRtpPacket, Inactive ctime channel lastReceivedTime

/-- No time that is looked at is ahead: that of the last packet, and, where no reason excuses the
    time since, that of the last change of mode. -/
def InOrder : Prop := ¬channel.isHangup → channel.isAnswered →
  ∀ lastReceivedTime ∈ channel.lastRtpPacket, lastReceivedTime ≤ ctime ∧
    (ctime - lastReceivedTime > 60 * 3 → ¬excused channel (ctime - lastReceivedTime) →
      ∀ lastModeChange ∈ channel.lastModeChange, lastModeChange ≤ ctime)

end Claimed

section Differences
variable {checks : Bool} {first second : UInt64}

theorem difference_of_le (order : second ≤ first) :
    difference checks first second = .ok (first - second) := by
  have notLess : ¬first < second := UInt64.not_lt.mpr order
  simp [difference, notLess]

theorem difference_of_lt (ahead : first < second) :
    difference true first second = .error .panicked := by
  simp [difference, ahead]

theorem ago_of_le (order : second ≤ first) : ago first second = (first - second).toNat := by
  have bound := UInt64.le_iff_toNat_le.mp order
  rw [ago, UInt64.toNat_sub_of_le _ _ order]
  omega

end Differences

section Proof
variable {checks : Bool} {ctime : UInt64} {now : Int} {channel : Channel}
  {lastReceivedTime lastModeChange : UInt64}

theorem monitorAnswered_past (packet : channel.lastRtpPacket = some lastReceivedTime)
    (past : lastReceivedTime ≤ ctime) : monitorAnswered checks ctime channel =
      if ctime - lastReceivedTime > 60 * 3 then
        if excused channel (ctime - lastReceivedTime) then .ok .kept
        else hangupUnlessChanged checks ctime channel
      else .ok .kept := by
  rw [monitorAnswered, packet]
  simp only [difference_of_le past, Except.bind, bind]

theorem monitorAnswered_ahead (packet : channel.lastRtpPacket = some lastReceivedTime)
    (ahead : ctime < lastReceivedTime) :
    monitorAnswered true ctime channel = .error .panicked := by
  rw [monitorAnswered, packet]
  simp only [difference_of_lt ahead, Except.bind, bind]

theorem hangupUnlessChanged_past (change : channel.lastModeChange = some lastModeChange)
    (past : lastModeChange ≤ ctime) : hangupUnlessChanged checks ctime channel =
      if ctime - lastModeChange < 180 then .ok .kept else .ok .hangup := by
  rw [hangupUnlessChanged, change]
  simp only [difference_of_le past, Except.bind, bind]

theorem hangupUnlessChanged_ahead (change : channel.lastModeChange = some lastModeChange)
    (ahead : ctime < lastModeChange) :
    hangupUnlessChanged true ctime channel = .error .panicked := by
  rw [hangupUnlessChanged, change]
  simp only [difference_of_lt ahead, Except.bind, bind]

theorem oneMonitor_answered (up : ¬channel.isHangup) (answered : channel.isAnswered) :
    oneMonitor checks ctime now channel =
      match monitorAnswered checks ctime channel with
      | .ok action => .done action
      | .error .error => .deleted
      | .error .panicked => .panicked := by
  rw [oneMonitor, monitorChannel, if_neg up, if_pos answered]

theorem inOrder_of_safe (safe : Safe ctime now channel) : InOrder ctime channel := by
  intro up answered lastReceivedTime packet
  have running : monitorAnswered true ctime channel ≠ .error .panicked := by
    intro stopped
    exact safe.noUnderflow (by rw [oneMonitor_answered up answered, stopped])
  have past : lastReceivedTime ≤ ctime := by
    by_contra ahead
    exact running (monitorAnswered_ahead packet (UInt64.not_le.mp ahead))
  refine ⟨past, fun silent unexcused lastModeChange change => ?_⟩
  by_contra ahead
  refine running ?_
  rw [monitorAnswered_past packet past, if_pos silent, if_neg unexcused,
    hangupUnlessChanged_ahead change (UInt64.not_le.mp ahead)]

/-- The change of mode is past as well, or not looked at. -/
theorem hangupUnlessChanged_cases (inOrder : ∀ lastModeChange ∈ channel.lastModeChange,
    lastModeChange ≤ ctime) :
    hangupUnlessChanged checks ctime channel = .ok .kept ∨
      hangupUnlessChanged checks ctime channel = .ok .hangup ∧
        ∀ lastModeChange ∈ channel.lastModeChange, ago ctime lastModeChange ≥ 180 := by
  cases change : channel.lastModeChange with
  | none =>
    right
    exact ⟨by simp [hangupUnlessChanged, change], nofun⟩
  | some lastModeChange =>
    have past := inOrder lastModeChange change
    have short : ctime - lastModeChange < 180 ↔ ¬ago ctime lastModeChange ≥ 180 := by
      rw [ago_of_le past, UInt64.lt_iff_toNat_lt, show (180 : UInt64).toNat = 180 from rfl]
      omega
    rw [hangupUnlessChanged_past change past]
    by_cases early : ctime - lastModeChange < 180
    · left
      rw [if_pos early]
    · right
      rw [if_neg early]
      refine ⟨rfl, fun other same => ?_⟩
      obtain rfl := Option.some.inj same
      by_contra late
      exact early (short.mpr late)

theorem excused_iff {duration : UInt64} : excused channel duration ↔
    (mediaMode channel ≠ .Sendrecv ∧ duration.toNat < 3 * 3600) ∨
      ∃ context ∈ channel.callContext, (context.transfer ∨ context.callback) ∧
        duration.toNat < 24 * 3600 := by
  have hold : duration < 3600 * 3 ↔ duration.toNat < 3 * 3600 := UInt64.lt_iff_toNat_lt
  have day : duration < 60 * 60 * 24 ↔ duration.toNat < 24 * 3600 := UInt64.lt_iff_toNat_lt
  simp only [excused, Bool.or_eq_true, Bool.and_eq_true, decide_eq_true_eq, Option.any_eq_true,
    Option.mem_def, hold, day, or_and_right]

theorem inactive_of_silent (past : lastReceivedTime ≤ ctime)
    (silent : ctime - lastReceivedTime > 60 * 3)
    (unexcused : ¬excused channel (ctime - lastReceivedTime))
    (changed : ∀ lastModeChange ∈ channel.lastModeChange, ago ctime lastModeChange ≥ 180) :
    Inactive ctime channel lastReceivedTime := by
  have same := ago_of_le past
  rw [excused_iff, not_or] at unexcused
  obtain ⟨held, moved⟩ := unexcused
  constructor
  · have long : (60 * 3 : UInt64).toNat < (ctime - lastReceivedTime).toNat :=
      UInt64.lt_iff_toNat_lt.mp silent
    rw [same]
    have minutes : (60 * 3 : UInt64).toNat = 180 := rfl
    omega
  · exact changed
  · intro context found either
    have long : ¬(ctime - lastReceivedTime).toNat < 24 * 3600 := fun short =>
      moved ⟨context, found, either, short⟩
    omega
  · intro hold
    have long : ¬(ctime - lastReceivedTime).toNat < 3 * 3600 := fun short => held ⟨hold, short⟩
    omega

theorem monitorUnanswered_runs : monitorUnanswered now channel ≠ .error .panicked := by
  unfold monitorUnanswered
  split
  · nofun
  · split <;> nofun

theorem oneMonitor_unanswered (unanswered : ¬channel.isAnswered) :
    oneMonitor checks ctime now channel ≠ .panicked := by
  unfold oneMonitor monitorChannel
  rw [if_neg unanswered]
  by_cases up : channel.isHangup
  · rw [if_pos up]
    nofun
  · rw [if_neg up]
    have runs := @monitorUnanswered_runs now channel
    split
    · nofun
    · nofun
    · rename_i stopped
      exact absurd stopped runs

/-- What becomes of an answered channel whose times are in order. -/
theorem oneMonitor_inOrder (inOrder : InOrder ctime channel) (up : ¬channel.isHangup)
    (answered : channel.isAnswered) (packet : channel.lastRtpPacket = some lastReceivedTime) :
    oneMonitor checks ctime now channel = .done .kept ∨
      oneMonitor checks ctime now channel = .done .hangup ∧
        Inactive ctime channel lastReceivedTime := by
  obtain ⟨past, changes⟩ := inOrder up answered lastReceivedTime packet
  rw [oneMonitor_answered up answered, monitorAnswered_past packet past]
  by_cases silent : ctime - lastReceivedTime > 60 * 3
  · by_cases unexcused : excused channel (ctime - lastReceivedTime)
    · left
      rw [if_pos silent, if_pos unexcused]
    · rw [if_pos silent, if_neg unexcused]
      rcases @hangupUnlessChanged_cases checks _ _ (changes silent unexcused) with
        kept | ⟨hangup, changed⟩
      · left
        rw [kept]
      · right
        rw [hangup]
        exact ⟨rfl, inactive_of_silent past silent unexcused changed⟩
  · left
    rw [if_neg silent]

theorem safe_of_inOrder (inOrder : InOrder ctime channel) : Safe ctime now channel := by
  by_cases answered : channel.isAnswered
  · by_cases up : channel.isHangup
    · have removed (checks : Bool) : oneMonitor checks ctime now channel = .done .removed := by
        rw [oneMonitor, monitorChannel, if_pos up]
      exact ⟨by rw [removed]; nofun, fun checks _ hangup =>
        absurd ((removed checks).symm.trans hangup) nofun⟩
    · cases packet : channel.lastRtpPacket with
      | none =>
        have deleted (checks : Bool) : oneMonitor checks ctime now channel = .deleted := by
          rw [oneMonitor_answered up answered, monitorAnswered, packet]
        exact ⟨by rw [deleted]; nofun, fun checks _ hangup =>
          absurd ((deleted checks).symm.trans hangup) nofun⟩
      | some lastReceivedTime =>
        have outcome (checks : Bool) := @oneMonitor_inOrder checks ctime now channel
          lastReceivedTime inOrder up answered packet
        refine ⟨fun panicked => ?_, fun checks _ hangup => ⟨lastReceivedTime, packet, ?_⟩⟩
        · rcases outcome true with kept | ⟨hangup, _⟩
          · exact absurd (kept.symm.trans panicked) nofun
          · exact absurd (hangup.symm.trans panicked) nofun
        · rcases outcome checks with kept | ⟨_, inactive⟩
          · exact absurd (kept.symm.trans hangup) nofun
          · exact inactive
  · exact ⟨oneMonitor_unanswered answered, fun _ shown => absurd shown answered⟩

/-- The monitor is safe exactly where no time that it looks at is ahead. -/
theorem monitor_safe_iff (ctime : UInt64) (now : Int) (channel : Channel) :
    Safe ctime now channel ↔ InOrder ctime channel :=
  ⟨inOrder_of_safe, safe_of_inOrder⟩

/-- A call whose last packet was written one second ahead. -/
def lively : Channel := ⟨false, true, none, some 1001, none, none⟩

/-- With overflow checks its task panics, without them it is hung up. -/
theorem packet_ahead : ¬(∀ (ctime : UInt64) (now : Int) (channel : Channel),
    oneMonitor true ctime now channel ≠ .panicked) ∧
    ¬∀ (ctime : UInt64) (now : Int) (channel : Channel), channel.isAnswered →
      oneMonitor false ctime now channel = .done .hangup →
      ∃ lastReceivedTime ∈ channel.lastRtpPacket, Inactive ctime channel lastReceivedTime := by
  constructor
  · intro always
    exact always 1000 1000 lively (by decide)
  · intro always
    obtain ⟨lastReceivedTime, packet, inactive⟩ := always 1000 1000 lively rfl (by decide)
    cases packet
    exact absurd inactive.packet (by decide)

end Proof

end InactivityMonitor
