import Cbps.Lib.Loop
import Mathlib.Data.List.Basic

/-!
# The OBEX object parser

`ObexParseCreateTree` lists the parts of an XML or vObject text one level down: a state machine
moves a pointer over the text and records where each element begins and ends. A pointer is its
offset from the start of the data, `e` is the length of the data, and an octet is the character
with its code. Looking at an octet outside of the data is the fault `outside`; the loops have no
bound of their own in the source, and running out of the turns given here is the fault `endless`.
-/

namespace Cbps.ObexParse

/-- What can go wrong. -/
inductive Fault
  | outside
  | endless
  deriving DecidableEq, Repr

/-- `ObexParseObject`. -/
inductive ObexParseObject
  | unknown
  | vobjElement
  | vobjFoldedElement
  | vobjVcard
  | vobjVcal
  | vobjBMsg
  | vobjBEnv
  | vobjBBody
  | vobjMsg
  | xmlElement
  | xmlFoldedElement
  | xmlMapEvent
  | xmlMapMsgList
  | xmlFolderList
  | xmlFileList
  deriving DecidableEq, Repr

/-- `ObexParseFragment`. -/
inductive ObexParseFragment
  | full
  | partialStart
  | partialEnd
  | partialMiddle
  deriving DecidableEq, Repr

/-- `ObexParseData`. -/
structure ObexParseData where
  fragment : ObexParseFragment
  type : ObexParseObject
  object : ℕ
  len : ℕ
  deriving DecidableEq, Repr

/-- `ObexParseStatus`. -/
inductive ObexParseStatus
  | success
  | getMoreData
  | treeFull
  | notRequired
  | invalidTree
  | dataCorrupted
  deriving DecidableEq, Repr

/-- `OBEX_PARSE_MAX_ELEMENTS`. -/
def obexParseMaxElements : ℕ := 6

/-- `opState`. -/
inductive OpState
  | newEntry
  | inStartTag
  | inGetTag
  | inGetElement
  | inEndTag
  | ended
  | error
  deriving DecidableEq, Repr

/-- `opType`. -/
inductive OpType
  | irdaObject
  | xmlObject
  deriving DecidableEq, Repr

/-- An `opType` is one of the object types. -/
def OpType.toObject : OpType → ObexParseObject
  | irdaObject => .vobjElement
  | xmlObject => .xmlElement

/-- `opHandle`. `folds` has eight bits. -/
structure OpHandle where
  state : OpState
  openEnv : Bool
  type : OpType
  folds : ℕ
  deriving DecidableEq, Repr

variable (data : List Char)

/-! ### Moving the pointer -/

/-- `*s`. -/
def peek (s : ℕ) : Except Fault Char :=
  match data[s]? with
  | some c => .ok c
  | none => .error .outside

/-- A loop `while( (s != e) && p(*s) ) ++s`. From behind the end it would never meet `e`. -/
def skipWhile (p : Char → Bool) (s : ℕ) : Except Fault ℕ :=
  if s ≤ data.length then .ok (s + ((data.drop s).takeWhile p).length) else .error .outside

/-- `opSkipToChar`. -/
def opSkipToChar (s : ℕ) (c : Char) : Except Fault ℕ := skipWhile data (fun d => d ≠ c) s

/-- `opSkipToAnyChar`. -/
def opSkipToAnyChar (s : ℕ) (x y : Char) : Except Fault ℕ :=
  skipWhile data (fun d => d ≠ x ∧ d ≠ y) s

/-- `opSkipToMulChars`. -/
def opSkipToMulChars (s : ℕ) (x y z : Char) : Except Fault ℕ :=
  skipWhile data (fun d => d ≠ x ∧ d ≠ y ∧ d ≠ z) s

/-- `opSkipChars`. -/
def opSkipChars (s : ℕ) (c d : Char) : Except Fault ℕ := skipWhile data (fun x => x = c ∨ x = d) s

/-- `opSkipCRLF`. -/
def opSkipCRLF (s : ℕ) : Except Fault ℕ := opSkipChars data s '\n' '\r'

/-- `opSkipSpace`. -/
def opSkipSpace (s : ℕ) : Except Fault ℕ := opSkipChars data s '\t' ' '

/-- `opSkipNULL`, which skips the octets 0 and 11. -/
def opSkipNULL (s : ℕ) : Except Fault ℕ := opSkipChars data s (Char.ofNat 0) (Char.ofNat 11)

/-- `opSkipBlank`. -/
def opSkipBlank (s : ℕ) : Except Fault ℕ := do opSkipSpace data (← opSkipCRLF data s)

/-- `opSkipJunk`. -/
def opSkipJunk (s : ℕ) : Except Fault ℕ := do
  opSkipNULL data (← opSkipSpace data (← opSkipCRLF data s))

/-- `if( s != e ) s++`. -/
def advance (s : ℕ) : ℕ := if s ≠ data.length then s + 1 else s

/-- `s--`. -/
def retreat (s : ℕ) : Except Fault ℕ := if s = 0 then .error .outside else .ok (s - 1)

/-- `if( ... ) s--`. -/
def retreatIf (b : Bool) (s : ℕ) : Except Fault ℕ := if b then retreat s else .ok s

/-- `opCheckChar`. The pointer `NULL` is `none`. -/
def opCheckChar (s : Option ℕ) (c : Char) : Except Fault (Option ℕ) :=
  match s with
  | none => .ok none
  | some s =>
    if s ≠ data.length then do
      let d ← peek data s
      return if d = c then some (s + 1) else none
    else .ok none

/-- Nested calls of `opCheckChar`, the first one innermost. -/
def opCheckChars (s : ℕ) (cs : List Char) : Except Fault (Option ℕ) :=
  cs.foldlM (opCheckChar data) (some s)

/-! ### Types of objects -/

/-- `opParseVobjType`. -/
def opParseVobjType (s : ℕ) : Except Fault ObexParseObject := do
  let c ← peek data s
  if c = 'V' ∨ c = 'B' then
    if (← opCheckChars data s ['V', 'C', 'A']).isSome then
      let s := s + 3
      if (← opCheckChars data s ['R', 'D']).isSome then return .vobjVcard
      else if (← opCheckChars data s ['L']).isSome then return .vobjVcal
      else return .vobjFoldedElement
    else
      let s := advance data s
      if (← opCheckChars data s ['M', 'S', 'G']).isSome then return .vobjBMsg
      else if (← opCheckChars data s ['E', 'N', 'V']).isSome then return .vobjBEnv
      else if (← opCheckChars data s ['B', 'O', 'D', 'Y']).isSome then return .vobjBBody
      else return .vobjFoldedElement
  else if (← opCheckChars data s ['M', 'S', 'G']).isSome then return .vobjMsg
  else return .vobjFoldedElement

/-- `opParseXmlType`. -/
def opParseXmlType (s : ℕ) : Except Fault ObexParseObject := do
  if (← opCheckChars data s ['e', 'v', 'e', 'n', 't']).isSome then return .xmlMapEvent
  else if (← opCheckChars data s ['m', 's', 'g']).isSome then return .xmlMapMsgList
  else if (← opCheckChars data s ['f']).isSome then
    let s := advance data s
    if (← opCheckChars data s ['i', 'l', 'e']).isSome then return .xmlFileList
    else if (← opCheckChars data s ['o', 'l', 'd', 'e', 'r']).isSome then return .xmlFolderList
    else return .xmlFoldedElement
  else return .xmlFoldedElement

/-- The type by which `opExtractTag` calls the object. -/
def opParseType : OpType → ℕ → Except Fault ObexParseObject
  | .xmlObject => opParseXmlType data
  | .irdaObject => opParseVobjType data

/-! ### Tags -/

/-- Where `opExtractTag` lets the tag end. -/
def opSkipTag : OpType → ℕ → Except Fault ℕ
  | .xmlObject, s => opSkipToAnyChar data s '>' ' '
  | .irdaObject, s => opSkipToAnyChar data s '\n' '\r'

/-- `opExtractTag`: the element with its type, and the pointer behind the tag. -/
def opExtractTag (handle : OpHandle) (element : ObexParseData) (s : ℕ) :
    Except Fault (ObexParseData × ℕ) := do
  let obj ← opParseType data handle.type s
  let element := if element.type = .xmlElement ∨ element.type = .vobjElement then
    { element with type := obj } else element
  let s ← opSkipTag data handle.type s
  let s ← opSkipBlank data (advance data s)
  return (element, s)

/-- `opCheckStartTag`. -/
def opCheckStartTag (s : ℕ) (type : OpType) : Except Fault Bool := do
  match type with
  | .xmlObject =>
    match ← opCheckChar data (some s) '<' with
    | some s => return (← opCheckChar data (some s) '/').isNone
    | none => return false
  | .irdaObject => return (← opCheckChars data s ['B', 'E', 'G', 'I', 'N', ':']).isSome

/-- `opCheckEndTag`. -/
def opCheckEndTag (s : ℕ) (type : OpType) : Except Fault Bool := do
  match type with
  | .xmlObject =>
    if (← opCheckChar data (some s) '/').isSome then
      let c ← peek data (← retreat s)
      if c = '<' then return true
      else return (← opCheckChar data (some (s + 1)) '>').isSome
    else return (← opCheckChars data s ['<', '/']).isSome
  | .irdaObject => return (← opCheckChars data s ['E', 'N', 'D', ':']).isSome

/-- The octet that ends a tag. -/
def OpType.tagEnd : OpType → Char
  | xmlObject => '>'
  | irdaObject => '\n'

/-- `opOnEndTag`. -/
def opOnEndTag (s : ℕ) (handle : OpHandle) : Except Fault (OpHandle × ℕ) := do
  if ← opCheckEndTag data s handle.type then
    let handle := { handle with state := .inEndTag }
    if handle.folds ≠ 0 then return (handle, ← opSkipToChar data s handle.type.tagEnd)
    else return (handle, s)
  else if !(← opCheckStartTag data s handle.type) then return (handle, advance data s)
  else return (handle, s)

/-! ### The handlers of the states -/

/-- The handle, the element that is filled and the pointer. -/
structure Cursor where
  handle : OpHandle
  element : ObexParseData
  s : ℕ
  deriving DecidableEq, Repr

/-- The handle changes its state. -/
def OpHandle.to (handle : OpHandle) (state : OpState) : OpHandle := { handle with state := state }

/-- `opAddElement`. Lengths have 16 bits. -/
def opAddElement (fragment : ObexParseFragment) (type : ObexParseObject) (object len : ℕ) :
    ObexParseData :=
  ⟨fragment, type, object, len % 65536⟩

/-- `opHandleNewEntry`. The octet at `s` is looked at even if `s` has reached the end. -/
def opHandleNewEntry (cur : Cursor) : Except Fault Cursor := do
  let s ← opSkipBlank data cur.s
  let element := opAddElement .partialStart cur.handle.type.toObject s (data.length - s)
  let c ← peek data s
  match cur.handle.type with
  | .xmlObject => return ⟨cur.handle.to (if c = '<' then .inStartTag else .error), element, s⟩
  | .irdaObject =>
    return ⟨cur.handle.to (if c = 'B' then .inStartTag else .inGetElement), element, s⟩

/-- `OP_IRDA_START_PROP_LEN`. -/
def opIrdaStartPropLen : ℕ := 6

/-- The length of what begins a tag. -/
def OpType.startLen : OpType → ℕ
  | xmlObject => 1
  | irdaObject => opIrdaStartPropLen

/-- `opGetProp`. -/
def opGetProp (cur : Cursor) : Except Fault Cursor := do
  if ← opCheckStartTag data cur.s cur.handle.type then
    return { cur with handle := cur.handle.to .inGetTag, s := cur.s + cur.handle.type.startLen }
  else
    let (handle, s) ← opOnEndTag data cur.s cur.handle
    let handle := if handle.state = .inStartTag then handle.to .inGetElement else handle
    return { cur with handle := handle, s := s }

/-- `opGetTag`. -/
def opGetTag (cur : Cursor) : Except Fault Cursor := do
  let (element, s) ← opExtractTag data cur.handle cur.element cur.s
  if s ≠ data.length then
    if cur.handle.openEnv then
      let s ← opSkipSpace data s
      let element := { element with
        object := s
        len := (data.length - s) % 65536
        type := cur.handle.type.toObject }
      return ⟨{ cur.handle with openEnv := false, state := .inGetElement }, element, s⟩
    else
      return ⟨{ cur.handle with folds := (cur.handle.folds + 1) % 256, state := .inGetElement },
        element, s⟩
  else
    return ⟨if cur.handle.openEnv then cur.handle.to .error else cur.handle, element, s⟩

/-- The octet that may begin a tag. -/
def OpType.tagStart : OpType → Char
  | xmlObject => '<'
  | irdaObject => 'B'

/-- The octet in front of the one that ends a tag. -/
def OpType.tagEnd2 : OpType → Char
  | xmlObject => '/'
  | irdaObject => '\r'

/-- `opGetElement`. -/
def opGetElement (cur : Cursor) : Except Fault Cursor := do
  let type := cur.handle.type
  let s ← opSkipSpace data cur.s
  let s ← opSkipToMulChars data s type.tagStart type.tagEnd type.tagEnd2
  if s ≠ data.length then
    let c ← peek data s
    if c = type.tagStart then return { cur with handle := cur.handle.to .inStartTag, s := s }
    else if cur.handle.folds = 0 ∧
        (c = type.tagEnd ∨ (← opCheckChars data s [type.tagEnd2, type.tagEnd]).isSome) then
      return { cur with handle := cur.handle.to .inEndTag, s := s }
    else
      let s ← opSkipBlank data s
      let (handle, s) ← opOnEndTag data s cur.handle
      return { cur with handle := handle, s := s }
  else return { cur with s := s }

/-- The loop `while( s != p && *s is blank ) s--`. -/
def opTrim (p : ℕ) : ℕ → Except Fault ℕ
  | 0 =>
    if p = 0 then .ok 0 else do
      let c ← peek data 0
      if c = '\t' ∨ c = ' ' ∨ c = '\n' ∨ c = '\r' then .error .outside else return 0
  | s + 1 =>
    if s + 1 = p then .ok (s + 1) else do
      let c ← peek data (s + 1)
      if c = '\t' ∨ c = ' ' ∨ c = '\n' ∨ c = '\r' then opTrim p s else return s + 1

/-- Where `opHandleEnd` lets the element end: its last octet, or the end of the data. -/
def opLastOctet (type : OpType) (p s : ℕ) : Except Fault ℕ := do
  match type with
  | .xmlObject =>
    if (← peek data p) = '<' then opSkipToChar data s '>'
    else
      -- Happens on skipping the tag
      let c ← peek data s
      let s ← retreatIf ((c = '/' ∨ c = '>') ∧ p ≠ s) s
      retreatIf ((← peek data s) = '<' ∧ p ≠ s) s
  | .irdaObject => opTrim data p s

/-- The element of an XML object begins without a tag. -/
def opNoTag (type : OpType) (p : ℕ) : Except Fault Bool := do
  match type with
  | .xmlObject => return decide ((← peek data p) ≠ '<')
  | .irdaObject => return false

/-- `opHandleEnd`. -/
def opHandleEnd (cur : Cursor) : Except Fault Cursor := do
  let handle := { cur.handle with folds := cur.handle.folds - 1 }
  if handle.folds ≠ 0 then return { cur with handle := handle.to .inGetElement }
  else
    let p := cur.element.object
    let s ← opLastOctet data handle.type p cur.s
    let s := advance data s
    let element := { cur.element with len := (s - p) % 65536, fragment := .full }
    let s ← opSkipBlank data s
    if ← opNoTag data handle.type p then return ⟨handle.to .ended, element, advance data (← opSkipToChar data s '>')⟩
    else return ⟨handle.to .ended, element, s⟩

/-! ### The parser -/

/-- One turn of the loop of `opGetNextElement`. -/
def opTurn (cur : Cursor) : Except Fault (Option Cursor) :=
  if cur.s = data.length then .ok none else
    match cur.handle.state with
    | .newEntry => some <$> opHandleNewEntry data cur
    | .inStartTag => some <$> opGetProp data cur
    | .inGetTag => some <$> opGetTag data cur
    | .inGetElement => some <$> opGetElement data cur
    | .inEndTag => some <$> opHandleEnd data cur
    | .ended => .ok none
    | .error => .ok none

/-- One turn of the loop that passes over the end tags behind an element. -/
def opEndTagTurn (type : OpType) (s : ℕ) : Except Fault (Option ℕ) := do
  if ← opCheckEndTag data s type then
    return some (advance data (← opSkipToChar data s type.tagEnd))
  else return none

/-- `opGetNextElement`. The element is overwritten when the entry begins. -/
def opGetNextElement (handle : OpHandle) (s : ℕ) : Except Fault Cursor := do
  let cur ← Lib.loop .endless (opTurn data) (1100 * (data.length + 1))
    ⟨handle, ⟨.full, .unknown, 0, 0⟩, s⟩
  if cur.handle.state = .ended then
    let s ← Lib.loop .endless (opEndTagTurn data cur.handle.type) (data.length + 1) cur.s
    return { cur with handle := cur.handle.to .newEntry, s := ← opSkipJunk data s }
  else return { cur with s := ← opSkipJunk data cur.s }

/-- The state of the loop of `ObexParseCreateTree`. -/
structure Parse where
  handle : OpHandle
  s : ℕ
  elements : List ObexParseData
  deriving DecidableEq, Repr

/-- The condition of the loop of `ObexParseCreateTree`. -/
def Parse.Continues (p : Parse) : Prop :=
  p.s ≠ data.length ∧ p.handle.state = .newEntry ∧ p.elements.length < obexParseMaxElements

instance (p : Parse) : Decidable (p.Continues data) := inferInstanceAs (Decidable (_ ∧ _))

/-- One turn of the loop of `ObexParseCreateTree`. -/
def parseTurn (p : Parse) : Except Fault (Option Parse) := do
  if p.Continues data then
    let cur ← opGetNextElement data p.handle p.s
    return some ⟨cur.handle, cur.s,
      if cur.handle.state ≠ .error then p.elements ++ [cur.element] else p.elements⟩
  else return none

/-- The handle that `ObexParseCreateTree` starts with. -/
def startHandle (objType : ObexParseObject) : OpHandle where
  state := .newEntry
  openEnv := true
  type :=
    match objType with
    | .xmlElement | .xmlFoldedElement | .xmlMapEvent | .xmlMapMsgList | .xmlFolderList
    | .xmlFileList => .xmlObject
    | _ => .irdaObject
  folds := 0

/-- `ObexParseCreateTree` up to its loop: data that begins with no start tag is listed as a part
of an element up to the next one. -/
def parseStart (objType : ObexParseObject) : Except Fault Parse := do
  let handle := startHandle objType
  let s ← opSkipCRLF data 0
  if ← opCheckStartTag data s handle.type then return ⟨handle, s, []⟩
  else
    let s ← opSkipToChar data 0 (match handle.type with | .xmlObject => '<' | .irdaObject => '\n')
    return ⟨{ handle with openEnv := false }, s,
      [opAddElement (if s ≠ data.length then .partialEnd else .partialMiddle) handle.type.toObject
        0 s]⟩

/-- The status of `ObexParseCreateTree` after its loop. -/
def Parse.status (p : Parse) : ObexParseStatus :=
  match p.handle.state with
  | .error => if p.elements.length = obexParseMaxElements then .treeFull else .dataCorrupted
  | .newEntry => .success
  | _ => .getMoreData

/-- `ObexParseCreateTree` for a tree that is not `NULL`: the status, and the listed elements
unless it returns before it touches the tree. -/
def obexParseCreateTree (objType : ObexParseObject) :
    Except Fault (ObexParseStatus × Option (List ObexParseData)) := do
  if data = [] then return (.dataCorrupted, none)
  else if objType = .vobjElement ∨ objType = .xmlElement ∨ objType = .unknown then
    return (.notRequired, none)
  else
    let p ← Lib.loop .endless (parseTurn data) (obexParseMaxElements + 1)
      (← parseStart data objType)
    return (p.status, some p.elements)

end Cbps.ObexParse
