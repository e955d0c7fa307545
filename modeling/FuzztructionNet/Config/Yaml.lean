import Mathlib.Data.List.Basic

/-!
# YAML values, paths and the loader's errors

The configuration loader reads the documents `yaml_rust::YamlLoader` returns. A document is a
`Yaml` tree. Hashes keep their entries in document order. `yaml[key]` is total: on a value that
is not a hash, or on a hash without the string key, it gives `BadValue`.

The loader either returns `Ok`, returns an `anyhow::Error` built from a `ConfigError`, an io
error or a message and wrapped in `context` layers, or panics. A `Fault` is one of the last
two. The file system and the parts of other crates the converters call (`canonicalize`,
`exists`, `LLVMInstruction::try_from`, the counter type of `ServerReadySignalKind`) are fields
of a `World` that the builder carries.
-/

namespace FuzztructionNet.Configuration

/-- `yaml_rust::Yaml`. An integer is an `i64` in the loader; the model takes any integer.
`Alias` is `aliasId`, since `alias` is a keyword here. -/
inductive Yaml where
  | real (s : String)
  | integer (i : Int)
  | string (s : String)
  | boolean (b : Bool)
  | array (items : List Yaml)
  | hash (entries : List (Yaml × Yaml))
  | aliasId (n : ℕ)
  | null
  | badValue

namespace Yaml

/-! ### Equality

The derived `PartialEq` of `Yaml`; the model needs it decidable to run the parser on concrete
documents. -/

mutual
def beq : Yaml → Yaml → Bool
  | real a, real b => a == b
  | integer a, integer b => a == b
  | string a, string b => a == b
  | boolean a, boolean b => a == b
  | array a, array b => beqList a b
  | hash a, hash b => beqHash a b
  | aliasId a, aliasId b => a == b
  | null, null => true
  | badValue, badValue => true
  | _, _ => false
def beqList : List Yaml → List Yaml → Bool
  | [], [] => true
  | x :: xs, y :: ys => beq x y && beqList xs ys
  | _, _ => false
def beqHash : List (Yaml × Yaml) → List (Yaml × Yaml) → Bool
  | [], [] => true
  | (k, v) :: xs, (k', v') :: ys => beq k k' && beq v v' && beqHash xs ys
  | _, _ => false
end

mutual
theorem eq_of_beq : ∀ a b : Yaml, beq a b = true → a = b
  | array xs, b, h => by
    cases b with
    | array ys => exact congrArg array (eq_of_beqList xs ys h)
    | _ => cases h
  | hash xs, b, h => by
    cases b with
    | hash ys => exact congrArg hash (eq_of_beqHash xs ys h)
    | _ => cases h
  | real _, b, h | integer _, b, h | string _, b, h | boolean _, b, h | aliasId _, b, h
  | null, b, h | badValue, b, h => by
    cases b <;> first | rfl | cases h | exact congrArg _ (LawfulBEq.eq_of_beq h)
theorem eq_of_beqList : ∀ xs ys : List Yaml, beqList xs ys = true → xs = ys
  | [], [], _ => rfl
  | x :: xs, y :: ys, h => by
    obtain ⟨h₁, h₂⟩ := (Bool.and_eq_true _ _).mp h
    rw [eq_of_beq x y h₁, eq_of_beqList xs ys h₂]
  | [], _ :: _, h | _ :: _, [], h => by cases h
theorem eq_of_beqHash : ∀ xs ys : List (Yaml × Yaml), beqHash xs ys = true → xs = ys
  | [], [], _ => rfl
  | (k, v) :: xs, (k', v') :: ys, h => by
    obtain ⟨⟨h₁, h₂⟩, h₃⟩ := (Bool.and_eq_true _ _).mp h |>.imp_left (Bool.and_eq_true _ _).mp
    rw [eq_of_beq k k' h₁, eq_of_beq v v' h₂, eq_of_beqHash xs ys h₃]
  | [], _ :: _, h | _ :: _, [], h => by cases h
end

mutual
theorem beq_self : ∀ a : Yaml, beq a a = true
  | array xs => beqList_self xs
  | hash xs => beqHash_self xs
  | real _ | integer _ | string _ | boolean _ | aliasId _ => beq_self_eq_true _
  | null | badValue => rfl
theorem beqList_self : ∀ xs : List Yaml, beqList xs xs = true
  | [] => rfl
  | x :: xs => (Bool.and_eq_true _ _).mpr ⟨beq_self x, beqList_self xs⟩
theorem beqHash_self : ∀ xs : List (Yaml × Yaml), beqHash xs xs = true
  | [] => rfl
  | (k, v) :: xs =>
    (Bool.and_eq_true _ _).mpr ⟨(Bool.and_eq_true _ _).mpr ⟨beq_self k, beq_self v⟩, beqHash_self xs⟩
end

instance : DecidableEq Yaml := fun a b =>
  decidable_of_iff (beq a b = true) ⟨eq_of_beq a b, fun h => h ▸ beq_self a⟩

/-! ### Accessors -/

def asStr : Yaml → Option String
  | string s => some s
  | _ => none

def asI64 : Yaml → Option Int
  | integer i => some i
  | _ => none

def asBool : Yaml → Option Bool
  | boolean b => some b
  | _ => none

def asVec : Yaml → Option (List Yaml)
  | array items => some items
  | _ => none

def asHash : Yaml → Option (List (Yaml × Yaml))
  | hash entries => some entries
  | _ => none

def isBadValue : Yaml → Bool
  | badValue => true
  | _ => false

def isNull : Yaml → Bool
  | null => true
  | _ => false

/-- The value of the first entry whose key is the string `k`, `BadValue` if there is none. -/
def lookup (k : String) : List (Yaml × Yaml) → Yaml
  | [] => badValue
  | (key, v) :: entries => if key = string k then v else lookup k entries

def index (y : Yaml) (k : String) : Yaml :=
  match y with
  | hash entries => lookup k entries
  | _ => badValue

def HasKey (y : Yaml) (k : String) : Prop :=
  ∃ entries, y = hash entries ∧ ∃ v, (string k, v) ∈ entries

theorem asStr_eq_some {y : Yaml} {s : String} : y.asStr = some s ↔ y = string s := by
  cases y <;> simp [asStr]

theorem asHash_eq_some {y : Yaml} {h : List (Yaml × Yaml)} : y.asHash = some h ↔ y = hash h := by
  cases y <;> simp [asHash]

@[simp] theorem index_badValue (k : String) : badValue.index k = badValue := rfl

@[simp] theorem index_null (k : String) : null.index k = badValue := rfl

end Yaml

/-- `str::to_lowercase`. It lowers the ASCII letters, which are the only ones the loader
compares against. -/
def toLowercase (s : String) : String := ⟨s.toList.map Char.toLower⟩

def startsWith (s pre : String) : Bool := pre.toList.isPrefixOf s.toList

structure PathBuf where
  path : String
  deriving DecidableEq

namespace PathBuf

def isRelative (p : PathBuf) : Bool := !startsWith p.path "/"

/-- `Path::join` with a relative path: appended after a separator, unless the base is empty or
already ends with one. -/
def join (base p : PathBuf) : PathBuf :=
  if base.path.toList.getLast?.all (· = '/') then ⟨base.path ++ p.path⟩
  else ⟨base.path ++ "/" ++ p.path⟩

end PathBuf

/-- `llvm_stackmap::LLVMInstruction`, kept as the number it is converted from. -/
structure LLVMInstruction where
  opcode : ℕ
  deriving DecidableEq

structure World where
  /-- `Path::canonicalize`: `none` where it returns an io error. -/
  canonicalize : PathBuf → Option PathBuf
  pathExists : PathBuf → Bool
  llvmInstruction : ℕ → Except String LLVMInstruction
  /-- The counts the counter of `ServerReadySignalKind` holds are those below this bound. -/
  counterBound : ℕ

structure ConfigBuilder where
  baseDir : PathBuf
  world : World

/-- `ConfigError`, the variants the loader raises. `ConvertionFailed` keeps the value it
prints. -/
inductive ConfigError
  | invalidValue (msg : String)
  | convertionFailed (value : Yaml) (expectedType : String)
  | missingSection (name : String)
  | unexpectedAttribute (name : String)
  deriving DecidableEq

/-- `anyhow::Error` as the loader builds it. -/
inductive Error
  | config (e : ConfigError)
  | message (msg : String)
  | io (path : PathBuf)
  | tryFromInt
  | context (msg : String) (e : Error)
  deriving DecidableEq

def Error.configError : Error → Option ConfigError
  | config e => some e
  | context _ e => e.configError
  | _ => none

/-- How a call of the loader can fail: it returns an `Err`, or it panics. -/
inductive Fault
  | err (e : Error)
  | panic
  deriving DecidableEq

abbrev Outcome (α : Type) := Except Fault α

/-- `Context::context`: wrap an `Err` in a context; a panic stays a panic. -/
def withContext (msg : String) : Outcome α → Outcome α
  | .error (.err e) => .error (.err (.context msg e))
  | r => r

def configErr (e : ConfigError) : Outcome α := .error (.err (.config e))

@[simp] theorem withContext_ok (msg : String) (a : α) :
    withContext msg (.ok a : Outcome α) = .ok a := rfl

theorem withContext_eq_ok {msg : String} {r : Outcome α} {a : α} :
    withContext msg r = .ok a ↔ r = .ok a := by
  rcases r with (_ | _) | _ <;> simp [withContext]

end FuzztructionNet.Configuration
