import OmpLazy.Context.RulesAssembly
import OmpLazy.Contracts.CompileTaskPacket
import OmpLazy.Workflows.StartWorkPlan

/-! The documents of rules: frontmatter, and a body behind it. -/

namespace OmpLazy.Context

open OmpLazy.Foundation OmpLazy.Foundation.Text
open OmpLazy.Workflows (joinLineBreaks isLineTerminator)

inductive FieldValue where
  | scalar (text : List Char)
  | list (items : List (List Char))
  deriving DecidableEq, Repr

abbrev Fields := List (List Char × FieldValue)

structure ParsedDocument where
  fields : Fields
  body : List Char
  deriving DecidableEq, Repr

def isLetter (c : Char) : Bool := ('A' ≤ c && c ≤ 'Z') || ('a' ≤ c && c ≤ 'z')

def isKeyChar (c : Char) : Bool := isLetter c || isDigit c || c = '_' || c = '-'

/-- `/^\s*-\s+(.*)$/` -/
def itemOf (line : List Char) : Option (List Char) :=
  match line.dropWhile isSpace with
  | '-' :: c :: rest =>
    let item := rest.dropWhile isSpace
    if isSpace c && !item.any isLineTerminator then some item else none
  | _ => none

/-- `/^([A-Za-z][A-Za-z0-9_-]*):\s*(.*)$/` -/
def pairOf (line : List Char) : Option (List Char × List Char) :=
  let key := line.takeWhile isKeyChar
  match line.dropWhile isKeyChar with
  | ':' :: rest =>
    let value := rest.dropWhile isSpace
    if key.head?.any isLetter && !value.any isLineTerminator then some (key, value) else none
  | _ => none

def doubleQuote : Char := Char.ofNat 0x22

def singleQuote : Char := Char.ofNat 0x27

/-- `/^(["'])(.*)\1$/` -/
def unquote (value : List Char) : List Char :=
  match trimList value with
  | [] => []
  | mark :: rest =>
    if (mark = doubleQuote ∨ mark = singleQuote) ∧ rest.getLast? = some mark ∧ !rest.dropLast.any isLineTerminator then
      rest.dropLast
    else mark :: rest

/-! An inline list is JSON. Its backslashes are doubled first, so that each of them stands for itself. -/

inductive ListReader where
  | start
  | first
  | inside (items : List (List Char)) (item : List Char)
  | behind (items : List (List Char))
  | next (items : List (List Char))
  | done (items : List (List Char))
  deriving DecidableEq, Repr

def isJsonSpace (c : Char) : Bool := c = ' ' || c = '\t' || c = '\n' || c = '\r'

def ListReader.read : ListReader → Char → Option ListReader
  | .start, c => if isJsonSpace c then some .start else if c = '[' then some .first else none
  | .first, c =>
    if isJsonSpace c then some .first else if c = ']' then some (.done [])
    else if c = doubleQuote then some (.inside [] []) else none
  | .inside items item, c =>
    if c = doubleQuote then some (.behind (items ++ [item]))
    else if c.toNat < 0x20 then none else some (.inside items (item ++ [c]))
  | .behind items, c =>
    if isJsonSpace c then some (.behind items) else if c = ']' then some (.done items)
    else if c = ',' then some (.next items) else none
  | .next items, c =>
    if isJsonSpace c then some (.next items) else if c = doubleQuote then some (.inside items []) else none
  | .done items, c => if isJsonSpace c then some (.done items) else none

def ListReader.result : ListReader → Option (List (List Char))
  | .done items => some items
  | _ => none

def parseInlineList (raw : List Char) : Option (List (List Char)) :=
  (raw.foldlM ListReader.read .start).bind ListReader.result

/-! Lines. -/

/-- The names of keys that every object has. -/
def inheritedNames : List (List Char) :=
  ["constructor", "hasOwnProperty", "isPrototypeOf", "propertyIsEnumerable", "toLocaleString", "toString",
    "valueOf"].map String.toList

def setField (key : List Char) (value : FieldValue) (fields : Fields) : Fields :=
  fields.map fun field ↦ if field.1 = key then (key, value) else field

structure FrontmatterState where
  fields : Fields
  currentKey : Option (List Char)

def readItem (state : FrontmatterState) (item : List Char) : Except String FrontmatterState :=
  match state.currentKey with
  | none => .error "list item without a preceding key"
  | some key =>
    match state.fields.lookup key with
    | some (.list items) => .ok { state with fields := setField key (.list (items ++ [unquote item])) state.fields }
    | _ => .error "list item without a preceding key"

section

local instance keys_lawful : LawfulBEq (List Char) := inferInstance

def readPair (state : FrontmatterState) (key value : List Char) : Except String FrontmatterState :=
  let raw := trimList value
  let field := fun field ↦ (⟨state.fields ++ [(key, field)], some key⟩ : FrontmatterState)
  if (state.fields.lookup key).isSome ∨ key ∈ inheritedNames then
    .error ("duplicate frontmatter key: " ++ String.ofList key)
  else if raw = [] then .ok (field (.list []))
  else if raw.head? = some '[' then
    match parseInlineList raw with
    | none => .error ("unparsable inline list for " ++ String.ofList key)
    | some items => .ok (field (.list items))
  else .ok (field (.scalar (unquote raw)))

end

def readLine (state : FrontmatterState) (line : List Char) : Except String FrontmatterState :=
  if trimList line = [] then .ok state
  else
    match itemOf line with
    | some item => readItem state item
    | none =>
      match pairOf line with
      | none => .error ("unparsable frontmatter line: " ++ String.ofList (trimList line))
      | some (key, value) => readPair state key value

def isFence (line : List Char) : Bool := trimList line = ['-', '-', '-']

def splitFrontmatter (text : List Char) : Except String ParsedDocument :=
  let lines := (joinLineBreaks text).splitOn '\n'
  if !lines.head?.any isFence then .error "missing opening frontmatter fence"
  else
    match lines.tail.dropWhile fun line ↦ !isFence line with
    | [] => .error "missing closing frontmatter fence"
    | _ :: rest => do
      let state ← (lines.tail.takeWhile fun line ↦ !isFence line).foldlM readLine ⟨[], none⟩
      return ⟨state.fields, trimList (['\n'].intercalate rest)⟩

/-! The schema of the frontmatter. -/

section Schema

variable (isAbsolute : String → Bool)

def isRelativeGlob (glob : String) : Bool :=
  !isAbsolute glob && !startsWith "/" glob && !(glob.toList.head?.any isLetter && glob.toList[1]? = some ':') &&
    !(glob.toList.splitOn '/').contains ['.', '.'] && !glob.toList.contains (Char.ofNat 0)

def globSchema (glob : List Char) : Option String :=
  let trimmed := String.ofList (trimList glob)
  if trimmed = "" ∨ 200 < utf16Length trimmed then none
  else (some (String.ofList (trimmed.toList.map fun c ↦ if c = '\\' then '/' else c))).filter (isRelativeGlob isAbsolute)

def globsSchema : Option FieldValue → Option (List String)
  | some (.list items) =>
    if items = [] ∨ 64 < items.length then none else items.mapM (globSchema isAbsolute)
  | _ => none

/-- `/^-?\d{1,4}$/` and `Number` -/
def readOrder (text : List Char) : Option ℤ :=
  let digits := if text.head? = some '-' then text.drop 1 else text
  if digits = [] ∨ 4 < digits.length ∨ !digits.all isDigit then none
  else
    let value : ℤ := Nat.ofDigitChars 10 digits 0
    some (if text.head? = some '-' then -value else value)

def orderSchema : Option FieldValue → Option (Option ℤ)
  | none => some none
  | some (.scalar text) => (readOrder (trimList text)).map some
  | some (.list _) => none

def descriptionSchema : Option FieldValue → Option (Option String)
  | none => some none
  | some (.scalar text) =>
    let trimmed := String.ofList (trimList text)
    if trimmed = "" ∨ 500 < utf16Length trimmed then none else some (some trimmed)
  | some (.list _) => none

structure RuleFrontmatter where
  globs : List String
  order : Option ℤ
  description : Option String
  deriving DecidableEq, Repr

def globsKey : List Char := "globs".toList

def orderKey : List Char := "order".toList

def descriptionKey : List Char := "description".toList

def ruleFrontmatterSchema (fields : Fields) : Option RuleFrontmatter := do
  guard (fields.all fun field ↦ [globsKey, orderKey, descriptionKey].contains field.1)
  let globs ← globsSchema isAbsolute (fields.lookup globsKey)
  let order ← orderSchema (fields.lookup orderKey)
  let description ← descriptionSchema (fields.lookup descriptionKey)
  return ⟨globs, order, description⟩

/-- What is said of a malformed document: why it could not be split, or that the schema refused it. -/
inductive FrontmatterError where
  | document (reason : String)
  | schema
  deriving DecidableEq, Repr

def parseRule (fileName relativePath displayPath text : String) (bytes : ℕ) : Except FrontmatterError RuleUnit :=
  match splitFrontmatter text.toList with
  | .error reason => .error (.document (fileName ++ ": " ++ reason))
  | .ok document =>
    match ruleFrontmatterSchema isAbsolute document.fields with
    | none => .error .schema
    | some frontmatter =>
      .ok {
        fileName, relativePath, displayPath
        globs := frontmatter.globs
        order := frontmatter.order
        description := frontmatter.description
        body := String.ofList document.body
        bytes }

end Schema

end OmpLazy.Context
