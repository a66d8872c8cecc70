import LedgerReports.Script.Library.Arguments

/-!
# Functions on numbers

Rounding, comparison, the usual functions of analysis, and random numbers.
-/

namespace LedgerReports.Script

namespace Number

/-- The number rounded to an integer by a function. A float too great for an integer stays one. -/
def rounded (round : Float → Float) : Number → Number
  | integer n => integer n
  | float x =>
    let r := round x
    ((floatToInteger? r).map integer).getD (float r)
  | nan negative => nan negative

/-- The float that a function yields for the number. -/
def mapFloat (f : Float → Float) : Number → Number
  | nan negative => nan negative
  | n => ofFloat (f n.toFloat)

/-- The number without its sign. -/
def abs : Number → Number
  | integer n => integer (if n < 0 then -n else n)
  | float x => float x.abs
  | nan _ => nan false

/-- The integer part and the fraction of a number. -/
def split : Number → Number × Number
  | integer n => (integer n, float 0.0)
  | nan negative => (nan negative, nan negative)
  | float x =>
    let whole := if x < 0.0 then x.ceil else x.floor
    (float whole, if x == whole then float 0.0 else ofFloat (x - whole))

/-- A factor from one half up to one and an exponent of two that give the number. -/
def splitBinary (n : Number) : Number × Int :=
  match n with
  | .nan _ => (n, 0)
  | n =>
    match Binary64.decode n.toFloat with
    | none => (float n.toFloat, 0)
    | some x =>
      if x.mantissa = 0 then (float n.toFloat, 0)
      else
        let bits := x.mantissa.log2 + 1
        (float (Binary64.nearest x.negative x.mantissa (2 ^ bits)), x.exponent + bits)

/-- The number times a power of two. -/
def scaled (n : Number) (exponent : Int) : Number :=
  match n with
  | .nan negative => .nan negative
  | n =>
    match Binary64.decode n.toFloat with
    | none => float n.toFloat
    | some x => float (scaleByTwo x.negative x.mantissa (x.exponent + exponent))

/-- What is left over of a division that rounds toward zero; nothing for integers if the divisor is
zero. -/
def remainder? : Number → Number → Option Number
  | integer a, integer b => if b == 0 then none else some (ofInt (Int.tmod a.toInt b.toInt))
  | a, b => some (ofFloatOp a b (Binary64.remainder a.toFloat b.toFloat))

/-- The ratio of the circumference of a circle to its diameter. -/
def pi : Float := Float.ofBits 0x400921fb54442d18

end Number

namespace MathFunction

/-- A function on floats. -/
def floatCall (f : Float → Float) (c : Call) : ScriptM (Array Value) := do
  return one (.number ((← c.numberArg 0).mapFloat f))

/-- Picks one of the arguments: a later one if `better later best`. -/
def pickCall (better : Value → Value → ScriptM Bool) (c : Call) : ScriptM (Array Value) := do
  c.require (1 ≤ c.args.size) 0 "value expected"
  let best ← (c.args.toList.drop 1).foldlM
    (fun best v => return if ← better v best then v else best) (c.arg 0)
  return one best

/-- The logarithm, to a base if one is given. -/
def logCall (c : Call) : ScriptM (Array Value) := do
  let n ← c.numberArg 0
  if (c.arg 1).isNil then return one (.number (n.mapFloat Float.log))
  let base := (← c.numberArg 1).toFloat
  let f (x : Float) : Float :=
    if base == 2.0 then x.log2
    else if base == 10.0 then x.log10
    else x.log / base.log
  return one (.number (n.mapFloat f))

/-- The next random word. -/
def nextRandom : ScriptM UInt64 := do
  let (x, r) := (← getThe Machine).random.next
  modifyThe Machine fun m => { m with random := r }
  return x

/-- How often a random number may be thrown away. -/
def maxAttempts : Nat := 1000

/-- A random integer from `low` to `high`, made of a random word. -/
def randomBetween (c : Call) (x : UInt64) (low high : Int) : ScriptM (Array Value) := do
  c.require (low ≤ high) (c.args.size - 1) "interval is empty"
  let (offset, r) :=
    Random.upTo (UInt64.ofNat (high - low).toNat) maxAttempts x (← getThe Machine).random
  modifyThe Machine fun m => { m with random := r }
  return one (.ofInt (low + offset.toNat))

/-- A random number: a float below one, or an integer of an interval. -/
def randomCall (c : Call) : ScriptM (Array Value) := do
  let x ← nextRandom
  match c.args.size with
  | 0 => return one (.ofFloat (Binary64.nearest false (x.toNat / 2 ^ 11) (2 ^ 53)))
  | 1 =>
    let high ← c.integerArg 0
    if high = 0 then return one (.number (.integer x.toInt64))
    randomBetween c x 1 high
  | 2 => randomBetween c x (← c.integerArg 0) (← c.integerArg 1)
  | _ => c.raise "wrong number of arguments"

/-- Begins the random numbers anew, and says what with. -/
def randomSeedCall (c : Call) : ScriptM (Array Value) := do
  let (first, second) ←
    if c.args.size = 0 then do
      let x ← nextRandom
      pure (x, ← nextRandom)
    else do
      let n ← c.numberArg 0
      let first := (n.toInteger?.map Int64.toUInt64).getD n.toFloat.toBits
      pure (first, (Int64.ofInt (← c.integerOr 1 0)).toUInt64)
  modifyThe Machine fun m => { m with random := Random.ofSeed first second }
  return #[.number (.integer first.toInt64), .number (.integer second.toInt64)]

/-- Runs a function on numbers. -/
def run (f : MathFunction) (c : Call) : ScriptM (Array Value) := do
  match f with
  | abs => return one (.number (← c.numberArg 0).abs)
  | acos => floatCall Float.acos c
  | asin => floatCall Float.asin c
  | atan =>
    let y ← c.numberArg 0
    let x ← c.optional 1 (.integer 1) c.numberArg
    return one (.number (.ofFloatOp y x (Float.atan2 y.toFloat x.toFloat)))
  | ceil => return one (.number ((← c.numberArg 0).rounded Float.ceil))
  | cos => floatCall Float.cos c
  | cosh => floatCall Float.cosh c
  | deg => floatCall (fun x => x * (180.0 / Number.pi)) c
  | exp => floatCall Float.exp c
  | floor => return one (.number ((← c.numberArg 0).rounded Float.floor))
  | fmod =>
    match Number.remainder? (← c.numberArg 0) (← c.numberArg 1) with
    | some n => return one (.number n)
    | none => c.raiseArgument 1 "zero"
  | frexp =>
    let (factor, exponent) := (← c.numberArg 0).splitBinary
    return #[.number factor, .ofInt exponent]
  | ldexp => return one (.number ((← c.numberArg 0).scaled (← c.integerArg 1)))
  | log => logCall c
  | log10 => floatCall Float.log10 c
  | max => pickCall (fun v best => c.actor.less best v) c
  | min => pickCall (fun v best => c.actor.less v best) c
  | modf =>
    let (whole, fraction) := (← c.numberArg 0).split
    return #[.number whole, .number fraction]
  | pow =>
    let a ← c.numberArg 0
    let b ← c.numberArg 1
    return one (.number (.ofFloatOp a b (Float.pow a.toFloat b.toFloat)))
  | rad => floatCall (fun x => x * (Number.pi / 180.0)) c
  | random => randomCall c
  | randomSeed => randomSeedCall c
  | sin => floatCall Float.sin c
  | sinh => floatCall Float.sinh c
  | sqrt => floatCall Float.sqrt c
  | tan => floatCall Float.tan c
  | tanh => floatCall Float.tanh c
  | toInteger =>
    match (c.arg 0).toInteger? with
    | some n => return one (.number (.integer n))
    | none =>
      discard (c.any 0)
      return one .nil
  | type =>
    match ← c.any 0 with
    | .number n => return one (.ofText (if n.isFloat then "float" else "integer"))
    | _ => return one .nil
  | ult =>
    let a ← c.integerArg 0
    let b ← c.integerArg 1
    return one (.bool ((Int64.ofInt a).toUInt64 < (Int64.ofInt b).toUInt64))

end MathFunction

end LedgerReports.Script
