import Facelock.Lib.Lines

/-!
# PAM service files as bytes and logical rules

The model of `PamDocument` and of the two iterators under it,
`PhysicalLine` and `LogicalRules`, of
`crates/facelock-cli/src/commands/pam.rs`.  A document is a list of
bytes.  A physical line and a logical rule are pairs of offsets into it,
as in the source, and the source's `loop`s take a fuel argument that is
the length of the document.  `Facelock.Pam.Segments` proves that this
fuel is enough and replaces the offsets by a recursion over lines.

`end` is a keyword of Lean, so the field `end` of the source is `stop`
here.
-/

namespace Facelock.Pam

abbrev Bytes := List UInt8

/-- The bytes of an ASCII literal of the source. -/
def ascii (text : String) : Bytes :=
  text.toList.map fun c => c.toNat.toUInt8

def newline : UInt8 := 10
def carriageReturn : UInt8 := 13
def space : UInt8 := 32
def tab : UInt8 := 9
def hash : UInt8 := 35
def backslash : UInt8 := 92

/-- `PAM_LINE`, the line that `add` inserts. -/
def pamLine : Bytes := ascii "auth      sufficient pam_facelock.so"

/-- The module name by which a rule is recognised. -/
def moduleName : Bytes := ascii "pam_facelock.so"

/-- `b"#%PAM-1.0"`. -/
def pamHeader : Bytes := ascii "#%PAM-1.0"

variable (bytes : Bytes)

def slice (first last : Nat) : Bytes :=
  (bytes.drop first).take (last - first)

/-- The bytes `b' ' | b'\t'` that may stand around a token or after a
continuation backslash. -/
def isBlank (byte : UInt8) : Bool :=
  byte == space || byte == tab

/-! ## Physical lines -/

structure PhysicalLine where
  bytes : Bytes
  start : Nat
  stop : Nat
  contentEnd : Nat

/-- The part of a content in front of the first `#`. -/
def semanticOf (content : Bytes) : Bytes :=
  match content.findIdx? (· == hash) with
  | some stop => content.take stop
  | none => content

/-- The `while` loop that steps back over trailing blanks. -/
def skipTrailingBlanks (content : Bytes) : Nat → Nat
  | 0 => 0
  | n + 1 =>
    match content[n]? with
    | some byte => if isBlank byte then skipTrailingBlanks content n else n + 1
    | none => n + 1

/-- The index of the backslash that continues a content.  A `#` ends the
semantic rule, so a content with one never continues. -/
def continuationOf (content : Bytes) : Option Nat :=
  if content.contains hash then none
  else
    let stop := skipTrailingBlanks content content.length
    if 0 < stop ∧ content[stop - 1]? = some backslash then some (stop - 1) else none

/-- What a physical line adds to the text of its rule: its semantic part,
with a space in place of a continuation. -/
def payloadOf (content : Bytes) : Bytes :=
  match continuationOf content with
  | some stop => (semanticOf content).take stop ++ [space]
  | none => semanticOf content

namespace PhysicalLine

def «at» (bytes : Bytes) (start : Nat) : Option PhysicalLine :=
  if bytes.length ≤ start then none
  else
    let stop :=
      match (bytes.drop start).findIdx? (· == newline) with
      | some relative => start + relative + 1
      | none => bytes.length
    let contentEnd :=
      if bytes[stop - 1]? = some newline then
        -- A carriage return belongs to the terminator only when it is
        -- inside this line.
        if start < stop - 1 ∧ bytes[stop - 1 - 1]? = some carriageReturn then stop - 1 - 1
        else stop - 1
      else stop
    some { bytes, start, stop, contentEnd }

variable (line : PhysicalLine)

def content : Bytes :=
  slice line.bytes line.start line.contentEnd

def semantic : Bytes :=
  semanticOf line.content

def hasSemanticContent : Bool :=
  line.semantic.any fun byte => !isBlank byte

def continuationBackslash : Option Nat :=
  continuationOf line.content

end PhysicalLine

/-! ## Logical rules -/

structure LogicalRule where
  start : Nat
  stop : Nat
  bytes : Bytes

/-- The first `loop` of `LogicalRules::next`: skip lines without semantic
content. -/
def firstRuleLine (bytes : Bytes) : Nat → Nat → Option PhysicalLine
  | 0, _ => none
  | fuel + 1, next =>
    match PhysicalLine.at bytes next with
    | none => none
    | some line =>
      if line.hasSemanticContent then some line else firstRuleLine bytes fuel line.stop

/-- The second `loop` of `LogicalRules::next`: the last physical line of
the rule that `line` belongs to. -/
def lastRuleLine (bytes : Bytes) : Nat → PhysicalLine → PhysicalLine
  | 0, line => line
  | fuel + 1, line =>
    if line.continuationBackslash.isNone ∨ line.stop = bytes.length then line
    else
      match PhysicalLine.at bytes line.stop with
      | none => line
      | some next =>
        -- Linux-PAM consumes a blank or comment line to end an assembled
        -- rule.  It stays out of the rule's span.
        if !next.hasSemanticContent then line else lastRuleLine bytes fuel next

/-- `LogicalRules::next` at the offset `next`.  The new offset is the end
of the rule. -/
def nextLogicalRule (next : Nat) : Option LogicalRule :=
  match firstRuleLine bytes bytes.length next with
  | none => none
  | some first =>
    let last := lastRuleLine bytes bytes.length first
    some { start := first.start, stop := last.stop, bytes := slice bytes first.start last.stop }

/-- The rules that the iterator yields from the offset `next` on. -/
def logicalRulesFrom (bytes : Bytes) : Nat → Nat → List LogicalRule
  | 0, _ => []
  | fuel + 1, next =>
    match nextLogicalRule bytes next with
    | none => []
    | some rule => rule :: logicalRulesFrom bytes fuel rule.stop

def logicalRules : List LogicalRule :=
  logicalRulesFrom bytes bytes.length 0

/-- The `while let` loop of `semantic_rule`. -/
def semanticRuleFrom (rule : Bytes) : Nat → Nat → Bytes
  | 0, _ => []
  | fuel + 1, next =>
    match PhysicalLine.at rule next with
    | none => []
    | some line => payloadOf line.content ++ semanticRuleFrom rule fuel line.stop

/-- `semantic_rule`: the rule with its comments dropped and every
continuation joined by a space. -/
def semanticRule (rule : Bytes) : Bytes :=
  semanticRuleFrom rule rule.length 0

def isAsciiWhitespace (byte : UInt8) : Bool :=
  byte == space || byte == tab || byte == newline || byte == 12 || byte == carriageReturn

def toAsciiLowercase (byte : UInt8) : UInt8 :=
  if 65 ≤ byte ∧ byte ≤ 90 then byte + 32 else byte

def eqIgnoreAsciiCase (left right : Bytes) : Bool :=
  left.map toAsciiLowercase == right.map toAsciiLowercase

def firstToken (semantic : Bytes) : Option Bytes :=
  match semantic.dropWhile isAsciiWhitespace with
  | [] => none
  | token => some (token.takeWhile fun byte => !isAsciiWhitespace byte)

def isAuthRule (rule : Bytes) : Bool :=
  match firstToken (semanticRule rule) with
  | none => false
  | some token =>
    let keyword := if token.head? = some 45 then token.tail else token
    eqIgnoreAsciiCase keyword (ascii "auth")

def isFacelockRule (rule : Bytes) : Bool :=
  Lines.hasWindow moduleName (semanticRule rule)

/-! ## Documents -/

def hasFacelockRule : Bool :=
  (logicalRules bytes).any fun rule => isFacelockRule rule.bytes

def authInsertionOffset : Option Nat :=
  ((logicalRules bytes).find? fun rule => isAuthRule rule.bytes).map LogicalRule.start

def pamHeaderEnd : Option Nat :=
  match PhysicalLine.at bytes 0 with
  | none => none
  | some header => if header.content == pamHeader then some header.stop else none

def lineEndingFrom (first : Nat) : Option Bytes :=
  match (bytes.drop first).findIdx? (· == newline) with
  | none => none
  | some relative =>
    let stop := first + relative
    if first < stop ∧ bytes[stop - 1]? = some carriageReturn then
      some (slice bytes (stop - 1) (stop + 1))
    else some (slice bytes stop (stop + 1))

/-- `PamDocument::with_facelock_inserted`, and `with_line_inserted`. -/
def withLineInserted : Bytes :=
  let authOffset := authInsertionOffset bytes
  let headerEnd := if authOffset.isNone then pamHeaderEnd bytes else none
  let offset := (authOffset.or headerEnd).getD 0
  let endingFrom := if authOffset.isSome then offset else 0
  let ending := ((lineEndingFrom bytes endingFrom).or (lineEndingFrom bytes 0)).getD [newline]
  if headerEnd = some bytes.length ∧ bytes.getLast? ≠ some newline then
    -- A header without a newline gets a separator, and the new rule stays
    -- unterminated.
    bytes.take offset ++ ending ++ pamLine
  else
    bytes.take offset ++ pamLine ++ (if bytes.isEmpty then [] else ending) ++ bytes.drop offset

/-- The two accumulators of `with_facelock_removed`. -/
structure Removal where
  output : Bytes
  copiedThrough : Nat

/-- Copy up to `first` and skip to `last`. -/
def Removal.cut (removal : Removal) (first last : Nat) : Removal :=
  { output := removal.output ++ slice bytes removal.copiedThrough first
    copiedThrough := last }

/-- The inner `while` loop: cut every physical line with the content
`PAM_LINE` that follows a continued line of the same rule. -/
def cutInjectedLines (bytes : Bytes) (stop : Nat) :
    Nat → Nat → Bool → Removal → Bool → Removal × Bool
  | 0, _, _, removal, repaired => (removal, repaired)
  | fuel + 1, next, previousContinued, removal, repaired =>
    if next < stop then
      match PhysicalLine.at bytes next with
      | none => (removal, repaired)
      | some line =>
        let continued := line.continuationBackslash.isSome
        if previousContinued ∧ line.content = pamLine then
          cutInjectedLines bytes stop fuel line.stop continued
            (removal.cut bytes line.start line.stop) true
        else
          cutInjectedLines bytes stop fuel line.stop continued removal repaired
    else (removal, repaired)

/-- The body of the `for` loop over the logical rules. -/
def removeRule (removal : Removal) (rule : LogicalRule) : Removal :=
  if isFacelockRule rule.bytes then
    match cutInjectedLines bytes rule.stop bytes.length rule.start false removal false with
    | (repairedRemoval, true) => repairedRemoval
    | (_, false) => removal.cut bytes rule.start rule.stop
  else removal

/-- `PamDocument::with_facelock_removed`, and `with_line_removed`. -/
def withLineRemoved : Bytes :=
  let removal := (logicalRules bytes).foldl (removeRule bytes) { output := [], copiedThrough := 0 }
  removal.output ++ bytes.drop removal.copiedThrough

/-! ## The exact spelling of older releases -/

/-- The inner `while` loop of `has_only_exact_legacy_facelock_rules`.  The
early returns are `none`. -/
def sawExactLine (content : Bytes) (stop : Nat) : Nat → Nat → Bool → Option Bool
  | 0, _, sawExact => some sawExact
  | fuel + 1, next, sawExact =>
    if next < stop then
      match PhysicalLine.at content next with
      | none => none
      | some line =>
        if Lines.hasWindow moduleName line.semantic then
          if line.content ≠ pamLine then none else sawExactLine content stop fuel line.stop true
        else sawExactLine content stop fuel line.stop sawExact
    else some sawExact

/-- The `for` loop over the logical rules. -/
def onlyExactRules (content : Bytes) : List LogicalRule → Bool → Bool
  | [], found => found
  | rule :: rules, found =>
    if isFacelockRule rule.bytes then
      match sawExactLine content rule.stop content.length rule.start false with
      | some true => onlyExactRules content rules true
      | _ => false
    else onlyExactRules content rules found

def hasOnlyExactLegacyFacelockRules (content : Bytes) : Bool :=
  onlyExactRules content (logicalRules content) false

end Facelock.Pam
