import Nebula.Redis.ZoneConvergence

/- A command that is sent again until a connection answers: what the server runs of it, and
   what the caller of a conditional write learns. A lost request and a lost reply look the
   same from the pool. -/
namespace CommandRetries
open RedisCommands
open ZoneConvergence (Entry look run)

/-- What becomes of one attempt: no connection, a connection that fails before the server
    runs the command or after it, a server that is still loading, an answer. -/
inductive Fate where
  | refused
  | cut
  | lost
  | busy
  | answered
  deriving DecidableEq

/-- What the caller gets, what is stored then, and how often the server ran the command. -/
structure Queried (Data Answer : Type) where
  result : Except String Answer
  data : Data
  runs : Nat

/-- The command at an attempt: what it makes of the data, and the reply as the caller reads it. -/
abbrev Serve (Data Answer : Type) := Nat → Data → Data × Except String Answer

section Query
variable {Data Answer : Type} (serve : Serve Data Answer) (fates : Nat → Fate)

def attempt (m : Nat) (data : Data) (runs : Nat) (retry : Data → Nat → Queried Data Answer) :
    Queried Data Answer :=
  match fates m with
  | .answered => ⟨(serve m data).2, (serve m data).1, runs + 1⟩
  | .lost => retry (serve m data).1 (runs + 1)
  | .refused | .cut | .busy => retry data runs

def quit (data : Data) (runs : Nat) : Queried Data Answer :=
  ⟨.error "redis retried more than 100 times, quit", data, runs⟩

/-- The loop at attempt `m`; `left` is how far `m` is from the last one. -/
def retrying : Nat → Nat → Data → Nat → Queried Data Answer
  | 0, m, data, runs => attempt serve fates m data runs quit
  | left + 1, m, data, runs => attempt serve fates m data runs (retrying left (m + 1))

/-- The attempt with `m > 100` is the last. -/
def doQuery (data : Data) : Queried Data Answer := retrying serve fates 101 0 data 0

/-- What is stored before an attempt, when none before it was answered. -/
def reached (data : Data) : Nat → Data
  | 0 => data
  | m + 1 => if fates m = .lost then (serve m (reached data m)).1 else reached data m

def lostBefore : Nat → Nat
  | 0 => 0
  | m + 1 => if fates m = .lost then lostBefore m + 1 else lostBefore m

structure FirstAnswer (k : Nat) : Prop where
  made : k < 102
  answer : fates k = .answered
  first : ∀ m < k, fates m ≠ .answered

end Query

section Runs
variable {Data Answer : Type} {serve : Serve Data Answer} {fates : Nat → Fate} {data : Data}

theorem attempt_answered {m : Nat} (fate : fates m = .answered) (runs : Nat)
    (retry : Data → Nat → Queried Data Answer) :
    attempt serve fates m data runs retry =
      ⟨(serve m data).2, (serve m data).1, runs + 1⟩ := by
  rw [attempt, fate]

/-- An attempt without an answer leaves what the next one finds. -/
theorem attempt_again {m : Nat} (fate : fates m ≠ .answered)
    (retry : Data → Nat → Queried Data Answer) :
    attempt serve fates m (reached serve fates data m) (lostBefore fates m) retry =
      retry (reached serve fates data (m + 1)) (lostBefore fates (m + 1)) := by
  rw [attempt, reached, lostBefore]
  cases own : fates m with
  | answered => exact absurd own fate
  | lost => rw [if_pos rfl, if_pos rfl]
  | refused => rw [if_neg (by decide), if_neg (by decide)]
  | cut => rw [if_neg (by decide), if_neg (by decide)]
  | busy => rw [if_neg (by decide), if_neg (by decide)]

theorem retrying_answered {left m k : Nat} (early : m ≤ k) (near : k ≤ m + left)
    (answer : fates k = .answered) (first : ∀ n < k, fates n ≠ .answered) :
    retrying serve fates left m (reached serve fates data m) (lostBefore fates m) =
      ⟨(serve k (reached serve fates data k)).2, (serve k (reached serve fates data k)).1,
        lostBefore fates k + 1⟩ := by
  induction left generalizing m with
  | zero =>
    have same : m = k := by omega
    subst same
    exact attempt_answered answer _ _
  | succ left ih =>
    rcases Nat.eq_or_lt_of_le early with rfl | later
    · exact attempt_answered answer _ _
    · rw [retrying, attempt_again (first m later)]
      exact ih later (by omega)

theorem retrying_quits {left m : Nat} (none : ∀ k, m ≤ k → k ≤ m + left → fates k ≠ .answered) :
    retrying serve fates left m (reached serve fates data m) (lostBefore fates m) =
      quit (reached serve fates data (m + left + 1)) (lostBefore fates (m + left + 1)) := by
  induction left generalizing m with
  | zero =>
    rw [retrying, attempt_again (none m (Nat.le_refl m) (Nat.le_refl m))]
  | succ left ih =>
    have last : m + 1 + left + 1 = m + (left + 1) + 1 := by omega
    rw [retrying, attempt_again (none m (Nat.le_refl m) (by omega)), ← last]
    exact ih fun k early near => none k (by omega) (by omega)

theorem doQuery_answered {k : Nat} (first : FirstAnswer fates k) :
    doQuery serve fates data =
      ⟨(serve k (reached serve fates data k)).2, (serve k (reached serve fates data k)).1,
        lostBefore fates k + 1⟩ := by
  have near := first.made
  exact @retrying_answered _ _ serve fates data 101 0 k (Nat.zero_le k) (by omega) first.answer
    first.first

theorem doQuery_quits (none : ∀ k, ¬ FirstAnswer fates k) :
    doQuery serve fates data = quit (reached serve fates data 102) (lostBefore fates 102) := by
  have unanswered : ∀ k < 102, fates k ≠ .answered := by
    intro k
    induction k using Nat.strongRecOn with
    | ind k ih =>
      intro made answer
      exact none k ⟨made, answer, fun m before => ih m before (by omega)⟩
  exact @retrying_quits _ _ serve fates data 101 0 fun k _ near => unanswered k (by omega)

theorem lostBefore_eq_zero (k : Nat) : lostBefore fates k = 0 ↔ ∀ m < k, fates m ≠ .lost := by
  induction k with
  | zero => exact iff_of_true rfl fun m early => absurd early (Nat.not_lt_zero m)
  | succ k ih =>
    rw [lostBefore]
    split
    · rename_i lost
      refine iff_of_false (Nat.succ_ne_zero _) fun none => none k (Nat.lt_succ_self k) lost
    · rename_i kept
      rw [ih]
      constructor
      · intro none m early
        rcases Nat.lt_succ_iff_lt_or_eq.mp early with before | rfl
        · exact none m before
        · exact kept
      · exact fun none m early => none m (Nat.lt_succ_of_lt early)

/-- A call that is `Ok` has run its command once exactly when no attempt before the answer
    lost its reply. -/
theorem doQuery_once_iff (serve : Serve Data Answer) (fates : Nat → Fate) (data : Data) :
    (∀ answer, (doQuery serve fates data).result = .ok answer →
      (doQuery serve fates data).runs ≤ 1) ↔
    ∀ k answer, FirstAnswer fates k → (serve k (reached serve fates data k)).2 = .ok answer →
      ∀ m < k, fates m ≠ .lost := by
  constructor
  · intro once k answer first replied
    rw [doQuery_answered first] at once
    have single := once answer replied
    dsimp only at single
    exact (lostBefore_eq_zero k).mp (by omega)
  · intro kept answer result
    by_cases some : ∃ k, FirstAnswer fates k
    · obtain ⟨k, first⟩ := some
      rw [doQuery_answered first] at result ⊢
      have none := (lostBefore_eq_zero k).mpr (kept k answer first result)
      dsimp only
      omega
    · rw [doQuery_quits fun k first => some ⟨k, first⟩] at result
      cases result

end Runs

section Creators

/-- The key of a conditional write, and whether a run of this call has put it there. -/
structure Key where
  entry : Option Entry
  created : Bool

def readFlag : Reply → Except String Bool
  | .int n => .ok (n != 0)
  | .ok => .ok true
  | .nil => .ok false
  | .data text =>
    if text = "1" then .ok true
    else if text = "0" then .ok false
    else .error "invalid boolean"
  | .error => .error "server error"

/-- A command on the key at the times of the attempts. -/
def serveKey (times : Nat → Nat) (command : Command) : Serve Key Bool := fun m key =>
  let value := look (times m) key.entry
  let after := run (times m) command key.entry
  (⟨after, key.created || (value.isNone && (look (times m) after).isSome)⟩,
    readFlag (command.exec (times m) value).reply)

/-- The conditional writes that create a key: `hmset_nx_ex` and `setnx`. -/
def conditional : Command → Bool
  | .hmset_nx_ex _ _ | .setnx _ => true
  | _ => false

/-- Such a write answers whether there was no key. -/
theorem flag_conditional {command : Command} (own : conditional command = true) {now : Nat}
    {value : Option Value} {flag : Bool}
    (read : readFlag (command.exec now value).reply = .ok flag) : flag = value.isNone := by
  have returned : ∀ (effect : Effect) (n : Int),
      readFlag (effect.returns (.int n)).reply = .ok flag → flag = (n != 0) := by
    intro effect n shown
    unfold Effect.returns at shown
    split at shown
    · rename_i failed
      rw [failed] at shown
      cases shown
    · exact (Except.ok.inj shown).symm
  cases command with
  | hmset_nx_ex seconds pairs =>
    cases value with
    | none => exact returned _ 1 read
    | some present => exact returned _ 0 read
  | setnx text =>
    cases value with
    | none => exact (Except.ok.inj read).symm
    | some present => exact (Except.ok.inj read).symm
  | _ => cases own

/-- The caller whose call created the key is told so exactly when no run before the answered
    one put the key there, or the key is gone again by then. -/
theorem creator_told_iff {command : Command} (own : conditional command = true)
    (times : Nat → Nat) (fates : Nat → Fate) (entry : Option Entry) :
    (∀ flag, (doQuery (serveKey times command) fates ⟨entry, false⟩).result = .ok flag →
      (doQuery (serveKey times command) fates ⟨entry, false⟩).data.created = true →
        flag = true) ↔
    ∀ k flag, FirstAnswer fates k →
      (serveKey times command k (reached (serveKey times command) fates ⟨entry, false⟩ k)).2 =
        .ok flag →
      (reached (serveKey times command) fates ⟨entry, false⟩ k).created = false ∨
        look (times k) (reached (serveKey times command) fates ⟨entry, false⟩ k).entry = none := by
  constructor
  · intro told k flag first replied
    rw [doQuery_answered first] at told
    generalize reached (serveKey times command) fates ⟨entry, false⟩ k = key at told replied ⊢
    have truth := flag_conditional own replied
    cases created : key.created with
    | false => exact Or.inl rfl
    | true =>
      have kept : (serveKey times command k key).1.created = true := by
        unfold serveKey
        dsimp only
        rw [created, Bool.true_or]
      rw [told flag replied kept] at truth
      exact Or.inr (Option.isNone_iff_eq_none.mp truth.symm)
  · intro kept flag result created
    by_cases some : ∃ k, FirstAnswer fates k
    · obtain ⟨k, first⟩ := some
      rw [doQuery_answered first] at result created
      have either := kept k flag first result
      generalize reached (serveKey times command) fates ⟨entry, false⟩ k = key
        at result created either
      have truth := flag_conditional own result
      rcases either with fresh | gone
      · unfold serveKey at created
        dsimp only at created
        rw [fresh, Bool.false_or, Bool.and_eq_true] at created
        exact truth.trans created.1
      · rw [truth, gone]
        rfl
    · rw [doQuery_quits fun k first => some ⟨k, first⟩] at result
      cases result

/-- Over every command and every pattern of failures: when a call that is `Ok` has run its
    command once, and when the creator of a key is told so. -/
theorem query_once_and_told {Data Answer : Type} (serve : Serve Data Answer) (data : Data)
    (command : Command) (times : Nat → Nat) (entry : Option Entry) (fates : Nat → Fate) :
    ((∀ answer, (doQuery serve fates data).result = .ok answer →
        (doQuery serve fates data).runs ≤ 1) ↔
      ∀ k answer, FirstAnswer fates k → (serve k (reached serve fates data k)).2 = .ok answer →
        ∀ m < k, fates m ≠ .lost) ∧
    (conditional command = true →
      ((∀ flag, (doQuery (serveKey times command) fates ⟨entry, false⟩).result = .ok flag →
        (doQuery (serveKey times command) fates ⟨entry, false⟩).data.created = true →
          flag = true) ↔
      ∀ k flag, FirstAnswer fates k →
        (serveKey times command k (reached (serveKey times command) fates ⟨entry, false⟩ k)).2 =
          .ok flag →
        (reached (serveKey times command) fates ⟨entry, false⟩ k).created = false ∨
          look (times k) (reached (serveKey times command) fates ⟨entry, false⟩ k).entry =
            none)) :=
  ⟨doQuery_once_iff serve fates data, fun own => creator_told_iff own times fates entry⟩

/-- The reply to the first run of `setnx` is lost: the second finds the key of the first. -/
theorem creator_refused :
    ¬ ((∀ (Data Answer : Type) (serve : Serve Data Answer) (fates : Nat → Fate) (data : Data),
        ∀ answer, (doQuery serve fates data).result = .ok answer →
          (doQuery serve fates data).runs ≤ 1) ∧
      (∀ command, conditional command = true → ∀ times fates entry flag,
        (doQuery (serveKey times command) fates ⟨entry, false⟩).result = .ok flag →
          (doQuery (serveKey times command) fates ⟨entry, false⟩).data.created = true →
            flag = true)) := by
  intro claimed
  have told := claimed.2 (.setnx "channel") rfl (fun m => m * 100)
    (fun m => if m = 0 then .lost else .answered) none false rfl rfl
  cases told

end Creators

end CommandRetries
