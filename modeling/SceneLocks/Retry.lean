import SceneLocks.Time.Duration

/-!
# Retries

How often and how long to try again. A policy allows one attempt more than it has retries.
A run asks for one outcome after the other until it meets a success, an error that waiting
cannot mend, or the last attempt; between two attempts it waits. The loop that does so counts the
attempts in a word of 32 bits and works out each wait when it gets there.
-/

namespace SceneLocks

open Number Time

/-- How often and how long to retry. -/
structure RetryPolicy where
  /-- Retries after the first failed attempt. -/
  retries : UInt32 := 13
  /-- The wait between two attempts. -/
  wait : Duration := .ofMillis 150
  /-- The relative spread of the wait. -/
  jitter : Binary64 := .nought
deriving DecidableEq

namespace RetryPolicy

instance : Inhabited RetryPolicy := ⟨{}⟩

/-- One attempt, no waiting. -/
def once : RetryPolicy := { retries := 0, wait := .zero }

/-- Sets the spread, moved into `[0, 1]`. -/
def withJitter (p : RetryPolicy) (jitter : Binary64) : RetryPolicy :=
  { p with jitter := jitter.clamp .nought .one }

/-- The number of attempts; the largest number of retries allows no attempt more. -/
def attempts (p : RetryPolicy) : Nat := min (p.retries.toNat + 1) (UInt32.size - 1)

theorem attempts_pos (p : RetryPolicy) : 0 < p.attempts := by
  unfold attempts UInt32.size; omega

theorem attempts_lt (p : RetryPolicy) : p.attempts < UInt32.size := by
  unfold attempts UInt32.size; omega

/-- Whether every wait is the same. -/
def isSteady (p : RetryPolicy) : Bool :=
  p.jitter.lt .nought || p.jitter.eqv .nought || p.wait.isZero

/-- The wait before the next attempt, for what was drawn from the spread. From a spread that is
no finite number nothing can be drawn, and a wait can get too long: then there is none. -/
def delay? (p : RetryPolicy) (sample : Option Binary64) : Option Duration :=
  if p.isSteady then some p.wait
  else sample.bind fun x => p.wait.scale? ((Binary64.one.add x).larger .nought)

/-- The middle of the spread, if anything can be drawn from it. -/
def middle? (p : RetryPolicy) : Option Binary64 :=
  match p.jitter with
  | .finite .. => some .nought
  | .nan | .infinite _ => none

/-- Whether a success after this many attempts took more than a quarter of the retries. -/
def waitedLong (p : RetryPolicy) (attempts : Nat) : Bool :=
  1 < attempts && p.retries.toNat < min ((attempts - 1) * 4) (UInt32.size - 1)

end RetryPolicy

/-- How a run of attempts ended. -/
inductive Attempted (ε α : Type) where
  | done (value : α) (attempts : Nat)
  /-- With an error that waiting cannot mend. -/
  | permanent (error : ε) (attempts : Nat)
  /-- With the error of the last attempt. -/
  | exhausted (error : ε) (attempts : Nat)
deriving DecidableEq, Repr

namespace Attempted

/-- The number of attempts made. -/
def attempts {ε α : Type} : Attempted ε α → Nat
  | .done _ n => n
  | .permanent _ n => n
  | .exhausted _ n => n

/-- What is left to the caller: the value, or the error that counts. -/
def answer {ε α : Type} : Attempted ε α → Except ε α
  | .done value _ => .ok value
  | .permanent e _ | .exhausted e _ => .error e

end Attempted

/-- What a run of attempts does. -/
inductive Act where
  /-- It makes an attempt. -/
  | call
  /-- It sleeps. -/
  | sleep (d : Duration)
deriving DecidableEq

/-- Why a run of attempts breaks off. -/
inductive Mishap where
  /-- There is no wait for the next attempt. -/
  | noWait
  /-- The attempts cannot be counted any further. -/
  | overflow
deriving DecidableEq, Repr

namespace RetryPolicy

/-- Tries from attempt `n` on, with `left` attempts after it. -/
def runFrom {ε α : Type} (mendable : ε → Bool) (outcome : Nat → Except ε α) :
    Nat → Nat → Attempted ε α
  | left, n =>
    match outcome n with
    | .ok value => .done value n
    | .error e =>
      if !mendable e then .permanent e n
      else
        match left with
        | 0 => .exhausted e n
        | left + 1 => runFrom mendable outcome left (n + 1)

/-- How a run ends that tries while the errors are `mendable` and attempts are left; attempt `n`,
counted from one, yields `outcome n`. -/
def run {ε α : Type} (p : RetryPolicy) (mendable : ε → Bool) (outcome : Nat → Except ε α) :
    Attempted ε α :=
  runFrom mendable outcome (p.attempts - 1) 1

/-! ## The loop -/

variable {ε α : Type}

/-- The sleep for a wait; there is none for no wait at all. -/
def pause (d : Duration) : List Act := if d.isZero then [] else [.sleep d]

/-- One attempt more, unless the counter is full. -/
def count? (made : UInt32) : Option UInt32 :=
  if made.toNat + 1 < UInt32.size then some (made + 1) else none

theorem toNat_of_count? {made n : UInt32} (h : count? made = some n) :
    n.toNat = made.toNat + 1 := by
  unfold count? at h
  split at h
  · next hroom =>
    cases h
    rw [UInt32.toNat_add]
    exact Nat.mod_eq_of_lt hroom
  · cases h

/-- How a run ends with the outcome of attempt `n`, unless another attempt is due. -/
def ending? (p : RetryPolicy) (mendable : ε → Bool) (n : Nat) :
    Except ε α → Option (Attempted ε α)
  | .ok value => some (.done value n)
  | .error e =>
    if !mendable e then some (.permanent e n)
    else if p.attempts ≤ n then some (.exhausted e n)
    else none

/-- Goes on with the loop of a run after its first `made` attempts. -/
def loopFrom (p : RetryPolicy) (mendable : ε → Bool) (outcome : Nat → Except ε α)
    (draw : Nat → Option Binary64) (made : UInt32) :
    List Act × Except Mishap (Attempted ε α) :=
  match _hcount : count? made with
  | none => ([], .error .overflow)
  | some n =>
    match p.ending? mendable n.toNat (outcome n.toNat) with
    | some ended => ([.call], .ok ended)
    | none =>
      match p.delay? (draw n.toNat) with
      | none => ([.call], .error .noWait)
      | some d =>
        let (acts, ended) := p.loopFrom mendable outcome draw n
        (.call :: pause d ++ acts, ended)
termination_by UInt32.size - made.toNat
decreasing_by
  have := toNat_of_count? _hcount
  have := n.toNat_lt_size
  omega

/-- The loop of a run: what it does, and how it ends. Attempt `n`, counted from one, yields
`outcome n`, and `draw n` is what is drawn for the wait after it. -/
def loop (p : RetryPolicy) (mendable : ε → Bool) (outcome : Nat → Except ε α)
    (draw : Nat → Option Binary64) : List Act × Except Mishap (Attempted ε α) :=
  p.loopFrom mendable outcome draw 0

/-- The tick at which somebody is done who does all this from tick `start` on. An attempt takes
no time. -/
def tickOf (runtime : Runtime) (start : Nat) (acts : List Act) : Nat :=
  acts.foldl (fun now act =>
    match act with
    | .call => now
    | .sleep d => runtime.wakeTick now d) start

end RetryPolicy

end SceneLocks
