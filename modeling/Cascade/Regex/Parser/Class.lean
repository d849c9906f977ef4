import Cascade.Regex.Parser.Escape

/-!
# Reading classes in brackets

A class is a sequence of characters, ranges, named classes and nested classes; `&&` between two such
sequences asks for what both contain. A hyphen is a character of its own where it cannot make a
range, and so is a closing bracket at the start if another one follows.

A byte in a class that is no character by itself matches nothing. What it does is to keep the
characters that it begins out of a negated class, if that has single bytes alone.
-/

namespace Cascade.Regex.Parser

/-- The signs that a class is made of. -/
inductive ClassSign where
  /-- A character, by its number. -/
  | code (n : Nat)
  /-- One byte of a character, and the base of its digits. -/
  | byte (b base : Nat)
  /-- A hyphen that may make a range. -/
  | hyphen
  /-- A named class, or what is not in it. -/
  | named (cls : CharClass) (negated : Bool)
  /-- The opening of a class with its name between colons. -/
  | openNamed
  /-- The opening of a nested class. -/
  | opening
  /-- The sign for an intersection. -/
  | conjunction
  /-- The end of the class. -/
  | closing
  /-- The end of the pattern. -/
  | stop

/-- A character in a class. -/
structure Member where
  /-- Its number. -/
  code : Nat
  /-- Whether a single byte spells it. -/
  single : Bool

/-- What a class contains. -/
structure Content where
  /-- Its characters. -/
  chars : CharSet
  /-- The characters that begin with one of its bytes. -/
  begun : CharSet
  /-- Whether it has more than single bytes. -/
  wide : Bool

namespace Content

/-- What an empty class contains. -/
def empty : Content := ⟨.none, .none, false⟩

/-- The union of two sets, which is the other one if one is empty. -/
def join (a b : CharSet) : CharSet :=
  if a = .none then b else if b = .none then a else .union a b

/-- What is in one of two classes. -/
def union (a b : Content) : Content :=
  ⟨join a.chars b.chars, join a.begun b.begun, a.wide || b.wide⟩

/-- What is in both of two classes. -/
def inter (a b : Content) : Content :=
  ⟨.inter a.chars b.chars, .inter a.begun b.begun, a.wide && b.wide⟩

/-- What is not in a nested class. -/
def compl (a : Content) : Content :=
  ⟨.compl a.chars, .inter (.compl a.begun) (.range 0x80 0x10FFFF), true⟩

/-- The members between two ends. -/
def range (first last : Member) : Content :=
  -- from 0x80 on, a number up to 0xFF is also that of a byte
  let bytes : CharSet :=
    if last.code < 0x80 then .none else .lead (max first.code 0x80) (min last.code 0xFF)
  if first.single && last.single then
    let chars := if first.code < 0x80 then .range first.code (min last.code 0x7F) else .none
    ⟨chars, bytes, false⟩
  else if first.single || last.single then ⟨.range first.code last.code, bytes, true⟩
  else ⟨.range (max first.code 0x80) last.code, .none, true⟩

/-- A single member. -/
def single (m : Member) : Content :=
  range m m

/-- A named class, or what is not in it. -/
def named (cls : CharClass) (negated : Bool) : Content :=
  ⟨cls.set negated, .none, cls.isWide || negated⟩

/-- The set of a class that is complete. Case is ignored before the class is negated. -/
def set (a : Content) (ignoreCase negated : Bool) : CharSet :=
  let chars := if ignoreCase then .folded a.chars else a.chars
  if negated then .compl (if a.wide then chars else join chars a.begun) else chars

end Content

/-- What may still become a range. -/
inductive Pending where
  /-- Nothing has been read yet. -/
  | start
  /-- A character that may start a range. -/
  | member (m : Member)
  /-- A named class. -/
  | named
  /-- The start of a range and its hyphen. -/
  | range (first : Member)
  /-- A range or a nested class that is complete. -/
  | complete

/-- A class that is being read. -/
structure ClassState where
  /-- What has been read since the last sign for an intersection. -/
  content : Content
  /-- The intersection of what stands before that sign. -/
  before : Option Content
  /-- What may still become a range. -/
  pending : Pending

/-- The class before anything has been read. -/
def ClassState.start : ClassState :=
  ⟨.empty, none, .start⟩

namespace ClassState

/-- A class with more content. -/
def add (st : ClassState) (content : Content) : ClassState :=
  { st with content := st.content.union content }

/-- A class whose pending character, if there is one, stands for itself. -/
def flush (st : ClassState) : ClassState :=
  match st.pending with
  | .member m => st.add (.single m)
  | _ => st

/-- A class with one more character, which may end a range. -/
def addMember (st : ClassState) (m : Member) : Except Error ClassState :=
  match st.pending with
  | .range first =>
    if first.code ≤ m.code then .ok { st.add (.range first m) with pending := .complete }
    else .error .emptyRange
  | _ => .ok { st.flush with pending := .member m }

/-- A class with a named class in it, which can be no end of a range. -/
def addNamed (st : ClassState) (content : Content) : Except Error ClassState :=
  match st.pending with
  | .range _ => .error .classEndsRange
  | _ => .ok { st.flush.add content with pending := .named }

/-- A class with a nested class in it. The start of a range before it is lost. -/
def addNested (st : ClassState) (content : Content) : ClassState :=
  { st.flush.add content with pending := .complete }

/-- All that a class contains if it ends here. -/
def finish (st : ClassState) : Content :=
  match st.before with
  | some before => before.inter st.flush.content
  | none => st.flush.content

/-- A class behind the sign for an intersection. -/
def intersect (st : ClassState) : ClassState :=
  ⟨.empty, some st.finish, .start⟩

end ClassState

/-- The hyphen as a character. -/
def hyphen : Member := ⟨0x2D, true⟩

/-- The classes that can be named between brackets and colons. -/
def classNames : List (String × CharClass) :=
  [("alnum", .alphanumeric), ("alpha", .alphabetic), ("blank", .blank), ("cntrl", .control),
    ("digit", .digit), ("graph", .graphic), ("lower", .lowercase), ("print", .printing),
    ("punct", .punctuation), ("space", .space), ("upper", .uppercase), ("xdigit", .hexDigit),
    ("ascii", .ascii), ("word", .word)]

/-- Whether letters, which a circumflex may precede, stand before a colon and a closing bracket. -/
def opensNamedClass (text : Text) : Bool :=
  let name := match text with
    | '^' :: rest => rest
    | rest => rest
  -- any letters will do here, whether they are a known name or not
  let letters := name.takeWhile Unicode.isAlphabetic
  match name.drop letters.length with
  | ':' :: ']' :: _ => text.head? ≠ some ':'
  | _ => false

/-- Reads the name of a class behind its bracket and colon, and what closes it. -/
def namedClass : Parser Content := do
  let negated ← accept ['^']
  let text ← rest
  let known := classNames.findSome? fun (name, cls) =>
    (name.toList.isPrefixOf? text).map fun more => (cls, more)
  match known with
  | some (cls, ':' :: ']' :: more) =>
    setRest more
    return .named cls negated
  | _ => throw .unknownClass

/-- The next sign of a class. -/
def classSign : Parser ClassSign := do
  match ← next? with
  | none => return .stop
  | some ']' => return .closing
  | some '-' => return .hyphen
  | some '\\' =>
    match ← next? with
    | none => throw .trailingBackslash
    | some c =>
      if let some (cls, negated) := classEscape? c then return .named cls negated
      match ← spelled c with
      | .code n => return .code n
      | .byte b base => return .byte b base
  | some '[' =>
    match ← rest with
    | ':' :: more =>
      if opensNamedClass more then
        setRest more
        return .openNamed
      else return .opening
    | _ => return .opening
  | some '&' => if ← accept ['&'] then return .conjunction else return .code '&'.toNat
  | some c => return .code c.toNat

/-- Reads up to `count` more bytes that are spelled in a base, and the sign behind them if one has
been read. -/
def moreBytes (base : Nat) : (count : Nat) → Parser (List Nat × Option ClassSign)
  | 0 => return ([], none)
  | count + 1 => do
    match ← classSign with
    | .byte b base' =>
      if base' = base then
        let (bytes, behind) ← moreBytes base count
        return (b :: bytes, behind)
      else return ([], some (.byte b base'))
    | other => return ([], some other)

/-- Reads the character that begins with a byte, and the sign behind it. -/
def byteMember (b base : Nat) : Parser (Member × ClassSign) := do
  let saved ← rest
  let wanted := encodedLength b - 1
  let (bytes, behind) ← moreBytes base 3
  if bytes.length < wanted then throw .shortCharacter
  let behind ← match behind.filter fun _ => bytes.length = wanted with
    | some s => pure s
    | none =>
      -- the bytes that are too many belong to the next character
      setRest saved
      let _ ← moreBytes base wanted
      classSign
  if wanted = 0 then return (⟨b, true⟩, behind)
  match assemble? (b :: bytes.take wanted) with
  | some n => return (⟨n, false⟩, behind)
  | none => throw .badCharacter

/-- Reads the parts of a class from `s` on, up to its closing bracket. `nested` reads a nested class
behind its opening bracket. -/
def classParts (nested : Parser Content) :
    (fuel : Nat) → ClassState → ClassSign → Parser Content
  | 0, _, _ => throw .unclosedClass
  | fuel + 1, st, s => do
    match s with
    | .stop => throw .unclosedClass
    | .closing => return st.finish
    | .code n => classParts nested fuel (← st.addMember ⟨n, n < 0x80⟩) (← classSign)
    | .byte b base =>
      let (m, behind) ← byteMember b base
      classParts nested fuel (← st.addMember m) behind
    | .named cls negated =>
      classParts nested fuel (← st.addNamed (.named cls negated)) (← classSign)
    | .openNamed => classParts nested fuel (← st.addNamed (← namedClass)) (← classSign)
    | .opening => classParts nested fuel (st.addNested (← nested)) (← classSign)
    | .conjunction => classParts nested fuel st.intersect (← classSign)
    | .hyphen =>
      match st.pending with
      -- the second hyphen of `+--` ends the range
      | .range _ => classParts nested fuel (← st.addMember hyphen) (← classSign)
      | .start | .complete =>
        let behind ← classSign
        classParts nested fuel (← st.addMember hyphen) behind
      | .member first =>
        -- what comes next decides whether the hyphen makes a range
        match ← classSign with
        | .closing => classParts nested fuel (← st.addMember hyphen) .closing
        | .conjunction => classParts nested fuel (← st.addMember hyphen) .conjunction
        | behind => classParts nested fuel { st with pending := .range first } behind
      | .named =>
        match ← classSign with
        | .closing => classParts nested fuel (← st.addMember hyphen) .closing
        | .conjunction => classParts nested fuel (← st.addMember hyphen) .conjunction
        | _ => throw .classStartsRange

/-- Reads a class behind its opening bracket: whether it is negated, and what it contains. Classes
are nested at most `depth` levels deep. -/
def classBody : (depth : Nat) → Parser (Bool × Content)
  | 0 => throw .tooDeep
  | depth + 1 => do
    let negated ← accept ['^']
    let first ← classSign
    let nested := do
      let (negated, content) ← classBody depth
      return if negated then content.compl else content
    -- a closing bracket at the start stands for itself if another one follows
    let first ← match first with
      | .closing => if (← rest).contains ']' then pure (.code 0x5D) else throw .emptyClass
      | s => pure s
    let content ← classParts nested ((← rest).length + 2) .start first
    return (negated, content)

/-- Reads a class behind its opening bracket. -/
def charClass (o : Options) (depth : Nat) : Parser Expr := do
  let (negated, content) ← classBody depth
  return .set (content.set o.ignoreCase negated)

end Cascade.Regex.Parser
