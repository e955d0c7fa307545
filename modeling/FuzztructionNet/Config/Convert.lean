import FuzztructionNet.Config.Yaml
import FuzztructionNet.Duration

/-!
# The attribute converters

`TryFromYaml` turns one YAML value into a value of a configuration field. It fails with a
`ConfigError` where the value has the wrong shape, and panics on some inputs.
`ServerReadySignalKind` panics where its regex does not match or its count does not fit.
Durations panic where the number does not fit a `u64`, or where its product with the unit
overflows (a debug build's check).

The two regexes are searched leftmost-first, as the `regex` crate does. For
`([0-9]+)(s|m|h|d|a)` the match starts at the first maximal run of digits that a unit letter
follows. For `(bind|listen)(\(([1-9]+[0-9]*)\))?` it starts at the first occurrence of a
keyword, and takes the count group if it follows the keyword.

Messages that print a YAML value with `{:?}` keep their fixed text.
-/

namespace FuzztructionNet.Configuration

class TryFromYaml (α : Type) where
  tryFromYaml : ConfigBuilder → Yaml → Outcome α

export TryFromYaml (tryFromYaml)

def okOr (o : Option α) (e : Error) : Outcome α :=
  match o with
  | some a => .ok a
  | none => .error (.err e)

def digitsValue (ds : List Char) : ℕ :=
  ds.foldl (fun n c => 10 * n + (c.toNat - '0'.toNat)) 0

/-- `str::parse` into an unsigned integer below `bound`: an optional `+`, then one or more ASCII
digits. -/
def parseUnsigned (bound : ℕ) (s : String) : Option ℕ :=
  let ds := match s.toList with
    | '+' :: rest => rest
    | cs => cs
  if ds ≠ [] ∧ ds.all Char.isDigit ∧ digitsValue ds < bound then some (digitsValue ds) else none

instance : TryFromYaml String where
  tryFromYaml _ yaml := okOr yaml.asStr (.config (.convertionFailed yaml "String"))

instance : TryFromYaml PathBuf where
  tryFromYaml b yaml := do
    let path ← okOr (yaml.asStr.map PathBuf.mk) (.config (.convertionFailed yaml "PathBuf"))
    if path.isRelative then
      let absPath := b.baseDir.join path
      okOr (b.world.canonicalize absPath) (.io absPath)
    else pure path

instance : TryFromYaml Bool where
  tryFromYaml _ yaml := okOr yaml.asBool (.config (.convertionFailed yaml "bool"))

/-- `for_int_type!`: an `i64` of the YAML value, converted by `try_into` to the integer type
whose values are `lo ≤ i < hi`. -/
def forIntType (lo hi : Int) (yaml : Yaml) : Outcome Int := do
  let ret ← okOr yaml.asI64 (.message "Failed to convert into i64")
  if lo ≤ ret ∧ ret < hi then pure ret else .error (.err .tryFromInt)

instance : TryFromYaml UInt32 where
  tryFromYaml _ yaml := (forIntType 0 (2 ^ 32) yaml).map fun i => UInt32.ofNat i.toNat

instance : TryFromYaml ℕ where
  tryFromYaml _ yaml := (forIntType 0 (2 ^ 64) yaml).map Int.toNat

instance : TryFromYaml UInt64 where
  tryFromYaml _ yaml := (forIntType 0 (2 ^ 64) yaml).map fun i => UInt64.ofNat i.toNat

instance : TryFromYaml Int where
  tryFromYaml _ yaml := forIntType (-2 ^ 63) (2 ^ 63) yaml

structure MutationSiteID where
  id : UInt64
  deriving DecidableEq

/-- `ret as u64` on the `i64` of the value. -/
instance : TryFromYaml MutationSiteID where
  tryFromYaml _ yaml := do
    let ret ← okOr yaml.asI64 (.config (.convertionFailed yaml "i64"))
    pure ⟨UInt64.ofNat (ret % 2 ^ 64).toNat⟩

instance [TryFromYaml α] : TryFromYaml (List α) where
  tryFromYaml b yaml := do
    let items ← okOr yaml.asVec (.config (.convertionFailed yaml "Array"))
    items.mapM (tryFromYaml b)

inductive InputChannel
  | none | stdin | file | tcp | udp
  deriving DecidableEq

instance : TryFromYaml InputChannel where
  tryFromYaml b yaml := do
    let ret := toLowercase (← (tryFromYaml b yaml : Outcome String))
    withContext "Must be one of None, Stdin, File or Network" <| match ret with
      | "none" => pure .none
      | "stdin" => pure .stdin
      | "file" => pure .file
      | "tcp" => pure .tcp
      | "udp" => pure .udp
      | _ => configErr (.invalidValue ret)

inductive OutputChannel
  | none | stdout | file | tcp | udp
  deriving DecidableEq

instance : TryFromYaml OutputChannel where
  tryFromYaml b yaml := do
    let ret := toLowercase (← (tryFromYaml b yaml : Outcome String))
    withContext "Must be one of None, Stdout, File or Network" <| match ret with
      | "none" => pure .none
      | "stdout" => pure .stdout
      | "file" => pure .file
      | "tcp" => pure .tcp
      | "udp" => pure .udp
      | _ => configErr (.invalidValue ret)

inductive ServerReadySignalKind
  | bind (n : ℕ)
  | listen (n : ℕ)
  deriving DecidableEq

/-- The group `\(([1-9]+[0-9]*)\)` at the start of `cs`: the digits, if it matches there. -/
def countGroup : List Char → Option (List Char)
  | '(' :: d :: rest =>
    if '1' ≤ d ∧ d ≤ '9' then
      match (d :: rest).dropWhile Char.isDigit with
      | ')' :: _ => some ((d :: rest).takeWhile Char.isDigit)
      | _ => none
    else none
  | _ => none

/-- The leftmost match of `(bind|listen)(\(([1-9]+[0-9]*)\))?`: the keyword (group 1) and the
digits of group 3, if that group matched. -/
def readySignalCaptures : List Char → Option (String × Option (List Char))
  | [] => none
  | c :: cs =>
    if "bind".toList.isPrefixOf (c :: cs) then some ("bind", countGroup ((c :: cs).drop 4))
    else if "listen".toList.isPrefixOf (c :: cs) then some ("listen", countGroup ((c :: cs).drop 6))
    else readySignalCaptures cs

def readySignalKind (keyword ret : String) (n : ℕ) : Outcome ServerReadySignalKind :=
  withContext "Must be one of Bind or Listen" <| match keyword with
    | "bind" => pure (.bind n)
    | "listen" => pure (.listen n)
    | _ => configErr (.invalidValue ret)

instance : TryFromYaml ServerReadySignalKind where
  tryFromYaml b yaml := do
    let ret := toLowercase (← (tryFromYaml b yaml : Outcome String))
    match readySignalCaptures ret.toList with
    | none => .error .panic
    | some (keyword, none) => readySignalKind keyword ret 0
    | some (keyword, some digits) =>
      if digitsValue digits < b.world.counterBound then readySignalKind keyword ret (digitsValue digits)
      else .error .panic

def unitMillis : Char → Option ℕ
  | 's' => some 1000
  | 'm' => some (1000 * 60)
  | 'h' => some (1000 * 3600)
  | 'd' => some (1000 * 3600 * 24)
  | 'a' => some (1000 * 3600 * 24 * 365)
  | _ => none

/-- The leftmost match of `([0-9]+)(s|m|h|d|a)` in `cs`, with `run` the digits just before it
(reversed): the digits of group 1 and the unit letter of group 2. -/
def durationCaptures (run : List Char) : List Char → Option (List Char × Char)
  | [] => none
  | c :: cs =>
    if c.isDigit then durationCaptures (c :: run) cs
    else if run ≠ [] ∧ (unitMillis c).isSome then some (run.reverse, c)
    else durationCaptures [] cs

/-- `FromStrDuration::from_str`: `none` where it panics. -/
def FromStrDuration.fromStr (s : String) : Option (Except String Duration) :=
  match durationCaptures [] s.toList with
  | none => some (.error ("Invalid duration format (" ++ s ++ ")!"))
  | some (digits, suffix) =>
    let amount := digitsValue digits
    if amount < 2 ^ 64 then
      match unitMillis suffix with
      | some mult =>
        if h : amount * mult < 2 ^ 64 then some (.ok (Duration.fromMillis (amount * mult) h))
        else none
      | none => none
    else none

instance : TryFromYaml Duration where
  tryFromYaml b yaml := do
    let ret ← (tryFromYaml b yaml : Outcome String)
    match FromStrDuration.fromStr ret with
    | none => .error .panic
    | some (.ok d) => pure d
    | some (.error err) => configErr (.invalidValue ("Invalid duration value " ++ ret ++ ". e=" ++ err))

instance [TryFromYaml α] : TryFromYaml (Option α) where
  tryFromYaml b yaml :=
    if yaml.isBadValue || yaml.isNull then pure none
    else if (match (tryFromYaml b yaml : Outcome String) with
        | .ok s => toLowercase s == "none"
        | .error _ => false) then pure none
    else some <$> tryFromYaml b yaml

/-- One entry of an environment list: a hash with exactly one key, both strings. -/
def envEntry (b : ConfigBuilder) (kv : Yaml) : Outcome (String × String) := do
  let h ← okOr kv.asHash (.config (.convertionFailed kv "Hash"))
  match h with
  | [(k, v)] => pure (← tryFromYaml b k, ← tryFromYaml b v)
  | _ => configErr (.invalidValue "Expected exactly one key value mapping, got")

instance : TryFromYaml (List (String × String)) where
  tryFromYaml b yaml := do
    let items ← okOr yaml.asVec (.config (.convertionFailed yaml "Array"))
    items.mapM (envEntry b)

instance : TryFromYaml (List (Yaml × Yaml)) where
  tryFromYaml _ yaml := okOr yaml.asHash (.config (.invalidValue "Expected Hash found"))

instance : TryFromYaml LLVMInstruction where
  tryFromYaml b yaml := do
    let val ← (tryFromYaml b yaml : Outcome ℕ)
    match b.world.llvmInstruction val with
    | .ok r => pure r
    | .error e => configErr (.invalidValue e)

end FuzztructionNet.Configuration
