import OmpLazy.Contracts.CompileTaskPacket

/-! A catalog of skills and directives in a text of bounded size. -/

namespace OmpLazy.Context

open OmpLazy.Foundation OmpLazy.Foundation.Text OmpLazy.Contracts

def descriptionCapBytes : ℕ := 300

structure CatalogEntry where
  name : String
  location : String
  description : String
  deriving DecidableEq, Repr

structure RejectedEntry where
  name : String
  reason : String
  deriving DecidableEq, Repr

structure CompactionResult where
  entries : List CatalogEntry
  dropped : List String
  rejected : List RejectedEntry
  rendered : String
  totalBytes : ℕ
  deriving DecidableEq, Repr

/-! Descriptions. -/

def escape : Char := Char.ofNat 0x1B

def replacement : Char := Char.ofNat 0xFFFD

def isAsciiLetter (c : Char) : Bool := ('A' ≤ c && c ≤ 'Z') || ('a' ≤ c && c ≤ 'z')

/-- `replace(/^\[[0-9;]*[A-Za-z]/, "")` -/
def stripSequence (part : List Char) : List Char :=
  match part with
  | '[' :: rest =>
    match rest.dropWhile fun c ↦ isDigit c || c = ';' with
    | c :: rest => if isAsciiLetter c then rest else part
    | [] => part
  | _ => part

def stripSequences (cs : List Char) : List Char :=
  match cs.splitOn escape with
  | [] => []
  | first :: parts => first ++ parts.flatMap stripSequence

/-- `replaceAll("\r\n", " ")` -/
def joinLineEnds : List Char → List Char
  | '\r' :: '\n' :: cs => ' ' :: joinLineEnds cs
  | c :: cs => c :: joinLineEnds cs
  | [] => []

/-- `replace(/ {2,}/g, " ")` -/
def collapseBlanks : List Char → List Char
  | [] => []
  | c :: cs => if c = ' ' ∧ cs.head? = some ' ' then collapseBlanks cs else c :: collapseBlanks cs

def byteSize (cs : List Char) : ℕ := (cs.map Char.utf8Size).sum

/-- The longest prefix of at most so many bytes. -/
def takeBytes (most : ℕ) : List Char → List Char
  | [] => []
  | c :: cs => if c.utf8Size ≤ most then c :: takeBytes (most - c.utf8Size) cs else []

/-- A character that the cap cuts is decoded as one replacement character. One of these at the end goes: the
one of the cut, or, where the cut falls between two characters, one of the text's own. -/
def capDescription (cs : List Char) : List Char :=
  if byteSize cs ≤ descriptionCapBytes then cs
  else
    let kept := takeBytes descriptionCapBytes cs
    if byteSize kept = descriptionCapBytes ∧ kept.getLast? = some replacement then kept.dropLast else kept

def oneLine (cs : List Char) : List Char :=
  (joinLineEnds (stripSequences (cs.filter (· ≠ Char.ofNat 0)))).map fun c ↦ if c = '\r' ∨ c = '\n' then ' ' else c

def sanitizeDescription (description : String) : String :=
  String.ofList (capDescription (trimList (collapseBlanks (oneLine description.toList))))

/-! The catalog. -/

def validateEntry (entry : CatalogEntry) : Option String :=
  if trim entry.name = "" then some "empty_name"
  else if trim entry.location = "" then some "missing_location"
  else none

def renderEntry (entry : CatalogEntry) : String :=
  let desc := sanitizeDescription entry.description
  let head := "- name: " ++ entry.name ++ " | location: " ++ entry.location
  if desc = "" then head else head ++ " | " ++ desc

structure CompactionPass where
  retained : List CatalogEntry
  dropped : List String
  usedBytes : ℤ
  deriving DecidableEq, Repr

def CompactionPass.place (budgetBytes : ℤ) (pass : CompactionPass) (entry : CatalogEntry) : CompactionPass :=
  let separatorBytes : ℤ := if pass.retained.isEmpty then 0 else 1
  let totalNeeded := (renderEntry entry).utf8ByteSize + separatorBytes
  if pass.usedBytes + totalNeeded ≤ budgetBytes then
    { pass with retained := pass.retained ++ [entry], usedBytes := pass.usedBytes + totalNeeded }
  else { pass with dropped := pass.dropped ++ [entry.name] }

/-- A valid entry as it is retained. -/
def sanitizeEntry (entry : CatalogEntry) : CatalogEntry :=
  { entry with description := sanitizeDescription entry.description }

def sortEntries (entries : List CatalogEntry) : List CatalogEntry :=
  entries.mergeSort fun a b ↦ ordinalLe a.name b.name

def compactCatalog (entries : List CatalogEntry) (budgetBytes : ℤ) : CompactionResult :=
  let rejected := entries.filterMap fun entry ↦ (validateEntry entry).map fun reason ↦ ⟨entry.name, reason⟩
  let valid := (entries.filter fun entry ↦ validateEntry entry = none).map sanitizeEntry
  let pass := (sortEntries valid).foldl (CompactionPass.place budgetBytes) ⟨[], [], 0⟩
  let rendered := "\n".intercalate (pass.retained.map renderEntry)
  { entries := pass.retained
    dropped := pass.dropped
    rejected
    rendered
    totalBytes := rendered.utf8ByteSize }

end OmpLazy.Context
