import Cbps.Hfp.CallState
import Cbps.Lib.Loop
import Mathlib.Algebra.Ring.Nat

/-!
# Commands in their arrays

The commands for the audio gateway are written into arrays on the stack, or into a block of memory whose size is counted in
eight bits. `Built` commands are the octets that are handed over to `hfpSendAtCmd`; a command that does not fit its array
is an `Overrun`. `commands_iff` says which commands fit: a number of up to 250 digits, a battery level of two digits, a
call index of one.
-/

namespace Cbps.Hfp.Commands

open Lib List

/-! ### Arrays -/

/-- An octet outside of an array is written, or read, or a loop does not end. -/
inductive Overrun
  | outside
  | endless
  deriving DecidableEq, Repr

/-- An array with what happens to be in the memory. -/
def declared (mem : ℕ → Char) (size : ℕ) : List Char := (List.range size).map mem

/-- Characters are written into an array. -/
def write (array : List Char) (pos : ℕ) (text : List Char) : Except Overrun (List Char) :=
  if pos + text.length ≤ array.length then .ok (array.take pos ++ (text ++ array.drop (pos + text.length)))
  else .error .outside

/-- `sprintf`: the text and its end. -/
def sprintf (array : List Char) (pos : ℕ) (text : List Char) : Except Overrun (List Char) :=
  write array pos (text ++ ['\x00'])

/-- `strlen`. -/
def strlen (array : List Char) : Except Overrun ℕ :=
  if '\x00' ∈ array then .ok (array.takeWhile (· ≠ '\x00')).length else .error .outside

/-- `%d`. -/
def decimal (n : ℕ) : List Char := Nat.toDigits 10 n

/-- `hfp_at_cmd`: the commands that are awaited. -/
inductive AtCmd
  | atdMemory
  | atdNumber
  | csrSf
  | csrBat
  | csrPwr
  | csrGetSms
  | chldZero
  | chldOneIdx
  | chldOne
  | chldTwoIdx
  | chldTwo
  | chldThree
  | chldFour
  | brsf
  | bac
  deriving DecidableEq, Repr

/-- What `hfpSendAtCmd` is given: the octets up to the length, and the command that is awaited. -/
structure Sent where
  text : List Char
  pendingCmd : AtCmd
  deriving DecidableEq, Repr

/-- The call of `hfpSendAtCmd`. -/
def hfpSendAtCmd (length : ℕ) (cmd : List Char) (pendingCmd : AtCmd) : Except Overrun Sent :=
  if length ≤ cmd.length then .ok ⟨cmd.take length, pendingCmd⟩ else .error .outside

variable (mem : ℕ → Char)

/-- `char cmd[size]; sprintf( cmd, ... ); hfpSendAtCmd( link, strlen( cmd ), cmd, ... )`. -/
def printAndSend (size : ℕ) (text : List Char) (pendingCmd : AtCmd) : Except Overrun Sent := do
  let cmd ← sprintf (declared mem size) 0 text
  let length ← strlen cmd
  hfpSendAtCmd length cmd pendingCmd

/-! ### The code -/

/-- `prefix` of a dial command. -/
def dialPrefix : List Char := ['A', 'T', 'D', '>']

/-- `suffix` of a dial command. -/
def dialSuffix : List Char := [';', '\r']

/-- `createDialCmd`. The size of the command is a `u8`. -/
def createDialCmd (memory : Bool) (number : List Char) : Except Overrun Sent := do
  let sizePrefix := dialPrefix.length - if memory then 0 else 1
  let sizeDialCommand := (sizePrefix + number.length + dialSuffix.length) % 256
  let command ← write (declared mem sizeDialCommand) 0 (dialPrefix.take sizePrefix)
  let command ← write command sizePrefix number
  let command ← write command (sizePrefix + number.length) dialSuffix
  hfpSendAtCmd sizeDialCommand command (if memory then .atdMemory else .atdNumber)

/-- `hfp_csr_features`, without the widths. -/
structure CsrFeatures where
  callerName : ℕ
  rawText : ℕ
  sms : ℕ
  battLevel : ℕ
  pwrSource : ℕ
  codecs : ℕ
  codecBandwidths : ℕ
  deriving DecidableEq, Repr

/-- The features in the order of the command. -/
def CsrFeatures.toList (f : CsrFeatures) : List ℕ :=
  [f.callerName, f.rawText, f.sms, f.battLevel, f.pwrSource, f.codecs, f.codecBandwidths]

/-- `hfp_csr_features`: five bits, three for the codecs and two for their bandwidths. -/
structure CsrFeatures.Valid (f : CsrFeatures) : Prop where
  bits : f.callerName < 2 ∧ f.rawText < 2 ∧ f.sms < 2 ∧ f.battLevel < 2 ∧ f.pwrSource < 2
  codecs : f.codecs < 8
  codecBandwidths : f.codecBandwidths < 4

/-- A link, and the library that it belongs to. -/
structure Link where
  hfSupportedFeatures : ℕ
  agSupportedFeatures : ℕ
  csrFeatures : CsrFeatures
  agCsrFeatures : CsrFeatures
  agCsrFeaturesEnabled : Bool
  agCallState : HfpCallState
  wbsCodecMask : ℕ

/-- The widths of the fields. -/
structure Link.Valid (link : Link) : Prop where
  hf : link.hfSupportedFeatures < 65536
  csr : link.csrFeatures.Valid
  wbs : link.wbsCodecMask < 4

/-- `csrFeatureEnabled`. -/
def csrFeatureEnabled (link : Link) (feature : CsrFeatures → ℕ) : Bool :=
  feature link.csrFeatures ≠ 0 && (link.agCsrFeaturesEnabled && feature link.agCsrFeatures ≠ 0)

/-- `hfFeatureEnabled`. -/
def hfFeatureEnabled (link : Link) (bit : ℕ) : Bool := link.hfSupportedFeatures.testBit bit

/-- `agFeatureEnabled`. -/
def agFeatureEnabled (link : Link) (bit : ℕ) : Bool := link.agSupportedFeatures.testBit bit

/-- `hfpCsrFeaturesReq`. -/
def hfpCsrFeaturesReq (link : Link) : Except Overrun (Option Sent) :=
  if ∃ n ∈ link.csrFeatures.toList, n ≠ 0 then
    some <$> printAndSend mem 24 (['A', 'T', '+', 'C', 'S', 'R', 'S', 'F', '='] ++
      decimal link.csrFeatures.callerName ++ [','] ++ decimal link.csrFeatures.rawText ++ [','] ++
      decimal link.csrFeatures.sms ++ [','] ++ decimal link.csrFeatures.battLevel ++ [','] ++
      decimal link.csrFeatures.pwrSource ++ [','] ++ decimal link.csrFeatures.codecs ++ [','] ++
      decimal link.csrFeatures.codecBandwidths ++ ['\r']) .csrSf
  else return none

/-- `hfpCsrFeaturesHandleBatteryLevelReq`. -/
def hfpCsrFeaturesHandleBatteryLevelReq (link : Link) (battLevel : ℕ) : Except Overrun (Option Sent) :=
  if csrFeatureEnabled link CsrFeatures.battLevel then
    some <$> printAndSend mem 15 (['A', 'T', '+', 'C', 'S', 'R', 'B', 'A', 'T', 'T', '='] ++ decimal battLevel ++ ['\r']) .csrBat
  else return none

/-- `hfp_csr_power_status_report`. -/
inductive PowerStatus
  | battery
  | external
  deriving DecidableEq, Repr

/-- The value of the enumerator. -/
def PowerStatus.value : PowerStatus → ℕ
  | .battery => 1
  | .external => 2

/-- `hfpCsrFeaturesHandlePowerSourceReq`. -/
def hfpCsrFeaturesHandlePowerSourceReq (link : Link) (pwrStatus : PowerStatus) : Except Overrun (Option Sent) :=
  if csrFeatureEnabled link CsrFeatures.pwrSource then
    some <$> printAndSend mem 15 (['A', 'T', '+', 'C', 'S', 'R', 'P', 'W', 'R', '='] ++ decimal pwrStatus.value ++ ['\r']) .csrPwr
  else return none

/-- `hfpHandleCsrGetSmsReq`. -/
def hfpHandleCsrGetSmsReq (link : Link) (index : ℕ) : Except Overrun (Option Sent) :=
  if csrFeatureEnabled link CsrFeatures.sms then
    some <$> printAndSend mem 20
      (['A', 'T', '+', 'C', 'S', 'R', 'G', 'E', 'T', 'S', 'M', 'S', '='] ++ decimal index ++ ['\r']) .csrGetSms
  else return none

/-- `hfp_chld_action`. -/
inductive ChldAction
  | releaseHeldRejectWaiting
  | releaseActiveAcceptOther
  | holdActiveAcceptOther
  | addHeldToMultiparty
  | joinCallsAndHangUp
  deriving DecidableEq, Repr

/-- The value of the enumerator. -/
def ChldAction.value : ChldAction → ℕ
  | .releaseHeldRejectWaiting => 0
  | .releaseActiveAcceptOther => 1
  | .holdActiveAcceptOther => 2
  | .addHeldToMultiparty => 3
  | .joinCallsAndHangUp => 4

/-- `hfpCheckCallActionState`: the command that is awaited, if it returns TRUE. -/
def hfpCheckCallActionState (link : Link) (action : ChldAction) (callIdx : ℕ) : Option AtCmd :=
  match action, link.agCallState with
  | .releaseHeldRejectWaiting, .twcIncoming => some .chldZero
  | .releaseHeldRejectWaiting, .twcOutgoing => some .chldZero
  | .releaseHeldRejectWaiting, .heldActive => some .chldZero
  | .releaseHeldRejectWaiting, .heldRemaining => some .chldZero
  | .releaseActiveAcceptOther, .twcIncoming => some (if callIdx ≠ 0 then .chldOneIdx else .chldOne)
  | .releaseActiveAcceptOther, .twcOutgoing => some (if callIdx ≠ 0 then .chldOneIdx else .chldOne)
  | .releaseActiveAcceptOther, .heldActive => some (if callIdx ≠ 0 then .chldOneIdx else .chldOne)
  | .releaseActiveAcceptOther, .heldRemaining => some (if callIdx ≠ 0 then .chldOneIdx else .chldOne)
  | .releaseActiveAcceptOther, .multiparty => some (if callIdx ≠ 0 then .chldOneIdx else .chldOne)
  | .holdActiveAcceptOther, .twcIncoming => some (if callIdx ≠ 0 then .chldTwoIdx else .chldTwo)
  | .holdActiveAcceptOther, .twcOutgoing => some (if callIdx ≠ 0 then .chldTwoIdx else .chldTwo)
  | .holdActiveAcceptOther, .heldActive => some (if callIdx ≠ 0 then .chldTwoIdx else .chldTwo)
  | .holdActiveAcceptOther, .heldRemaining => some (if callIdx ≠ 0 then .chldTwoIdx else .chldTwo)
  | .holdActiveAcceptOther, .multiparty => some (if callIdx ≠ 0 then .chldTwoIdx else .chldTwo)
  | .holdActiveAcceptOther, .active => some (if callIdx ≠ 0 then .chldTwoIdx else .chldTwo)
  | .addHeldToMultiparty, .twcIncoming => some .chldThree
  | .addHeldToMultiparty, .heldActive => some .chldThree
  | .joinCallsAndHangUp, .heldActive => some .chldFour
  | .joinCallsAndHangUp, .multiparty => some .chldFour
  | _, _ => none

/-- `AT+CHLD=` -/
def chldStart : List Char := ['A', 'T', '+', 'C', 'H', 'L', 'D', '=']

/-- `hfpSendChldCmd`. -/
def hfpSendChldCmd (link : Link) (action : ChldAction) (callIdx : ℕ) : Except Overrun (Option Sent) :=
  match hfpCheckCallActionState link action callIdx with
  | none => return none
  | some pendingCmd =>
    if hfFeatureEnabled link 1 ∧ agFeatureEnabled link 0 then
      if callIdx ≠ 0 then
        if hfFeatureEnabled link 6 ∧ agFeatureEnabled link 7 then
          some <$> printAndSend mem 12 (chldStart ++ decimal action.value ++ decimal callIdx ++ ['\r']) pendingCmd
        else return none
      else some <$> printAndSend mem 12 (chldStart ++ decimal action.value ++ ['\r']) pendingCmd
    else return none

/-- `hfpHandleBrsfRequest`. -/
def hfpHandleBrsfRequest (link : Link) : Except Overrun Sent :=
  printAndSend mem 15 (['A', 'T', '+', 'B', 'R', 'S', 'F', '='] ++ decimal link.hfSupportedFeatures ++ ['\r']) .brsf

/-- `hfpWbsCodecMaskToCodecId`. -/
def hfpWbsCodecMaskToCodecId (codecMask : ℕ) : ℕ := if codecMask = 1 then 1 else if codecMask = 2 then 2 else 0

/-- The variables of the loop of `hfpHandleBacRequest`. -/
structure Bac where
  supportedCodecs : ℕ
  checkBit : ℕ
  bacReq : List Char
  charIdx : ℕ

/-- One turn of the loop of `hfpHandleBacRequest`. -/
def bacTurn (b : Bac) : Except Overrun (Option Bac) := do
  if b.supportedCodecs > 0 then
    let bit := b.supportedCodecs &&& b.checkBit
    if bit ≠ 0 then
      let text := decimal (hfpWbsCodecMaskToCodecId bit) ++ [',']
      let bacReq ← sprintf b.bacReq b.charIdx text
      return some ⟨b.supportedCodecs - bit, b.checkBit * 2 % 65536, bacReq, (b.charIdx + text.length) % 256⟩
    else return some ⟨b.supportedCodecs - bit, b.checkBit * 2 % 65536, b.bacReq, b.charIdx⟩
  else return none

/-- `AT+BAC=` -/
def bacStart : List Char := ['A', 'T', '+', 'B', 'A', 'C', '=']

/-- `hfpHandleBacRequest`. -/
def hfpHandleBacRequest (link : Link) : Except Overrun (Option Sent) := do
  if agFeatureEnabled link 9 ∧ hfFeatureEnabled link 7 then
    let bacReq ← sprintf (declared mem 20) 0 bacStart
    let b ← Lib.loop .endless bacTurn 17 ⟨link.wbsCodecMask, 1, bacReq, bacStart.length⟩
    -- the last comma is replaced
    let bacReq ← sprintf b.bacReq (b.charIdx - 1) ['\r']
    let sent ← hfpSendAtCmd b.charIdx bacReq .bac
    return some sent
  else return none

/-! ### The commands -/

/-- The text of a dial command. -/
def dialText (memory : Bool) (number : List Char) : List Char :=
  ['A', 'T', 'D'] ++ (if memory then ['>'] else []) ++ number ++ [';', '\r']

/-- The dial command. -/
def dialCmd (memory : Bool) (number : List Char) : Sent :=
  ⟨dialText memory number, if memory then .atdMemory else .atdNumber⟩

/-- `AT+CSRSF` with the features of the hands-free side, if there is one. -/
def csrSfCmd (link : Link) : Option Sent :=
  if ∃ n ∈ link.csrFeatures.toList, n ≠ 0 then
    some ⟨['A', 'T', '+', 'C', 'S', 'R', 'S', 'F', '='] ++
      [','].intercalate (link.csrFeatures.toList.map decimal) ++ ['\r'], .csrSf⟩
  else none

/-- `AT+CSRBATT` with the level. -/
def csrBatCmd (link : Link) (battLevel : ℕ) : Option Sent :=
  if csrFeatureEnabled link CsrFeatures.battLevel then
    some ⟨['A', 'T', '+', 'C', 'S', 'R', 'B', 'A', 'T', 'T', '='] ++ decimal battLevel ++ ['\r'], .csrBat⟩
  else none

/-- `AT+CSRPWR` with the status. -/
def csrPwrCmd (link : Link) (pwrStatus : PowerStatus) : Option Sent :=
  if csrFeatureEnabled link CsrFeatures.pwrSource then
    some ⟨['A', 'T', '+', 'C', 'S', 'R', 'P', 'W', 'R', '='] ++ decimal pwrStatus.value ++ ['\r'], .csrPwr⟩
  else none

/-- `AT+CSRGETSMS` with the index. -/
def csrGetSmsCmd (link : Link) (index : ℕ) : Option Sent :=
  if csrFeatureEnabled link CsrFeatures.sms then
    some ⟨['A', 'T', '+', 'C', 'S', 'R', 'G', 'E', 'T', 'S', 'M', 'S', '='] ++ decimal index ++ ['\r'], .csrGetSms⟩
  else none

/-- Both sides have enhanced call control. -/
def HasEcc (link : Link) : Prop := hfFeatureEnabled link 6 ∧ agFeatureEnabled link 7

instance (link : Link) : Decidable (HasEcc link) := inferInstanceAs (Decidable (_ ∧ _))

/-- The command that is awaited for a call hold action, if three-way calling is there and the action suits the calls. -/
def chldPending (link : Link) (action : ChldAction) (callIdx : ℕ) : Option AtCmd :=
  if hfFeatureEnabled link 1 ∧ agFeatureEnabled link 0 then hfpCheckCallActionState link action callIdx else none

/-- `AT+CHLD` with the action and, if there is one, the index of the call. -/
def chldCmd (link : Link) (action : ChldAction) (callIdx : ℕ) : Option Sent :=
  (chldPending link action callIdx).bind fun pendingCmd =>
    if callIdx = 0 then some ⟨chldStart ++ decimal action.value ++ ['\r'], pendingCmd⟩
    else if HasEcc link then some ⟨chldStart ++ decimal action.value ++ decimal callIdx ++ ['\r'], pendingCmd⟩
    else none

/-- `AT+BRSF` with the features of the hands-free side. -/
def brsfCmd (link : Link) : Sent :=
  ⟨['A', 'T', '+', 'B', 'R', 'S', 'F', '='] ++ decimal link.hfSupportedFeatures ++ ['\r'], .brsf⟩

/-- The identifiers of the codecs of a mask. -/
def codecIds (mask : ℕ) : List ℕ := ([1, 2].filter fun bit => mask &&& bit ≠ 0).map hfpWbsCodecMaskToCodecId

/-- The codecs are printed with a comma behind each. -/
def bacText (mask : ℕ) : List Char := bacStart ++ (codecIds mask).flatMap fun id => decimal id ++ [',']

/-- `AT+BAC` with the codecs: the last comma is replaced, or the equals sign if there is none. -/
def bacCmd (link : Link) : Option Sent :=
  if agFeatureEnabled link 9 ∧ hfFeatureEnabled link 7 then
    some ⟨(bacText link.wbsCodecMask).dropLast ++ ['\r'], .bac⟩
  else none

/-! ### Writing into arrays -/

variable {mem}

theorem length_declared (size : ℕ) : (declared mem size).length = size := by
  rw [declared, length_map, length_range]

/-- What is written behind the front of an array. -/
theorem write_behind {front back text : List Char} (h : text.length ≤ back.length) {pos : ℕ} (hpos : front.length = pos) :
    write (front ++ back) pos text = .ok (front ++ (text ++ back.drop text.length)) := by
  rw [write, ← hpos, if_pos (by rw [length_append]; omega), List.take_left, drop_append,
    drop_eq_nil_of_le (Nat.le_add_right _ _), nil_append, Nat.add_sub_cancel_left]

/-- Three parts that fill an array. -/
theorem write_three {array a b c : List Char} (h : array.length = a.length + b.length + c.length) :
    ∃ x y, write array 0 a = .ok x ∧ write x a.length b = .ok y ∧ write y (a.length + b.length) c = .ok (a ++ (b ++ c)) := by
  have hfirst := @write_behind [] array a (by omega) 0 rfl
  have hdrop : (array.drop a.length).length = b.length + c.length := by
    rw [length_drop]
    omega
  have hsecond := @write_behind a (array.drop a.length) b (by omega) _ rfl
  have hdrop' : ((array.drop a.length).drop b.length).length = c.length := by
    rw [length_drop]
    omega
  have hthird := @write_behind (a ++ b) ((array.drop a.length).drop b.length) c (by omega) (a.length + b.length)
    length_append
  rw [drop_eq_nil_of_le (Nat.le_of_eq hdrop'), append_nil, append_assoc, append_assoc] at hthird
  exact ⟨_, _, hfirst, hsecond, hthird⟩

theorem takeWhile_end {text rest : List Char} (h : '\x00' ∉ text) :
    (text ++ '\x00' :: rest).takeWhile (· ≠ '\x00') = text := by
  induction text with
  | nil => simp
  | cons c text ih =>
    have hc : c ≠ '\x00' := fun hc => h (hc ▸ mem_cons_self)
    rw [cons_append, takeWhile_cons_of_pos (by simpa using hc), ih (not_mem_of_not_mem_cons h)]

/-- A text that is printed into an array of its own fits if there is room for its end. -/
theorem printAndSend_eq {size : ℕ} {text : List Char} (h : '\x00' ∉ text) (pendingCmd : AtCmd) :
    printAndSend mem size text pendingCmd = if text.length < size then .ok ⟨text, pendingCmd⟩ else .error .outside := by
  have hlen : (text ++ ['\x00']).length = text.length + 1 := by rw [length_append, length_singleton]
  rw [printAndSend, sprintf]
  by_cases hfits : text.length < size
  · have hwrite := @write_behind [] (declared mem size) (text ++ ['\x00']) (by rw [hlen, length_declared]; omega) 0 rfl
    rw [nil_append, nil_append] at hwrite
    rw [if_pos hfits, hwrite, ok_bind, strlen, if_pos (by simp), append_assoc, singleton_append,
      takeWhile_end h, ok_bind, hfpSendAtCmd, if_pos (by rw [length_append]; omega), List.take_left]
  · rw [if_neg hfits, write, if_neg (by rw [hlen, length_declared]; omega)]
    rfl

/-! ### Decimals -/

theorem no_end_in_decimal (n : ℕ) : '\x00' ∉ decimal n := by
  intro h
  have hdigit := Nat.isDigit_of_mem_toDigits (b := 10) (by decide) (Nat.le_refl _) h
  exact absurd hdigit (by decide)

theorem length_decimal {n k : ℕ} (hk : 0 < k) : (decimal n).length ≤ k ↔ n < 10 ^ k :=
  Nat.length_toDigits_le_iff (by decide) hk

theorem length_decimal_pos (n : ℕ) : 0 < (decimal n).length := Nat.length_toDigits_pos

/-- One number in a command of its own. -/
theorem printNumber_eq {size : ℕ} {front : List Char} (hfront : '\x00' ∉ front) (n : ℕ) (pendingCmd : AtCmd) :
    printAndSend mem size (front ++ decimal n ++ ['\r']) pendingCmd =
      if (decimal n).length + (front.length + 1) < size then .ok ⟨front ++ decimal n ++ ['\r'], pendingCmd⟩
      else .error .outside := by
  have hend : '\x00' ∉ front ++ decimal n ++ ['\r'] := by
    intro h
    rcases mem_append.mp h with h | h
    · rcases mem_append.mp h with h | h
      · exact hfront h
      · exact no_end_in_decimal n h
    · exact absurd (mem_singleton.mp h) (by decide)
  have hlen : (front ++ decimal n ++ ['\r']).length = (decimal n).length + (front.length + 1) := by
    rw [length_append, length_append, length_singleton]
    omega
  rw [printAndSend_eq hend, hlen]

/-! ### The dial command -/

theorem length_dialText (memory : Bool) (number : List Char) :
    (dialText memory number).length = dialPrefix.length - (if memory then 0 else 1) + number.length + 2 := by
  cases memory <;> simp [dialText, dialPrefix] <;> omega

theorem sent_length {length : ℕ} {cmd : List Char} {pendingCmd : AtCmd} {sent : Sent}
    (h : hfpSendAtCmd length cmd pendingCmd = .ok sent) : sent.text.length = length := by
  rw [hfpSendAtCmd] at h
  split at h
  · next hle =>
    rw [← Except.ok.inj h, length_take, Nat.min_eq_left hle]
  · cases h

/-- The dial command is right exactly if its size fits into eight bits. -/
theorem dial_iff (memory : Bool) (number : List Char) :
    createDialCmd mem memory number = .ok (dialCmd memory number) ↔ (dialText memory number).length < 256 := by
  have hsize := length_dialText memory number
  constructor
  · intro h
    obtain ⟨command, -, h⟩ := exists_of_bind_eq_ok h
    obtain ⟨command', -, h⟩ := exists_of_bind_eq_ok h
    obtain ⟨command'', -, h⟩ := exists_of_bind_eq_ok h
    have hlen : (dialText memory number).length = _ := sent_length h
    have hsuffix : dialSuffix.length = 2 := rfl
    omega
  · intro hlt
    obtain ⟨k, hk⟩ : ∃ k, dialPrefix.length - (if memory then 0 else 1) = k := ⟨_, rfl⟩
    have hdeclared : (dialPrefix.take k).length = k := by
      rw [length_take]
      omega
    have hsuffix : dialSuffix.length = 2 := rfl
    have htext : dialPrefix.take k ++ (number ++ dialSuffix) = dialText memory number := by
      rw [← hk]
      cases memory <;> simp [dialText, dialPrefix, dialSuffix]
    have hmod : (k + number.length + dialSuffix.length) % 256 = k + number.length + dialSuffix.length :=
      Nat.mod_eq_of_lt (by omega)
    obtain ⟨x, y, hx, hy, hz⟩ := @write_three (declared mem (k + number.length + dialSuffix.length)) (dialPrefix.take k)
      number dialSuffix (by rw [length_declared, hdeclared])
    rw [hdeclared] at hy hz
    have hlen : (dialPrefix.take k ++ (number ++ dialSuffix)).length = k + number.length + dialSuffix.length := by
      rw [length_append, length_append, hdeclared, Nat.add_assoc]
    rw [createDialCmd, hk, hmod, hx, ok_bind, hy, ok_bind, hz, ok_bind, hfpSendAtCmd, if_pos (Nat.le_of_eq hlen.symm), ← hlen,
      take_length, htext]
    rfl

/-! ### The other commands -/

/-- A command that is sent under a condition is right exactly if it fits under the condition. -/
theorem guarded_iff {c : Prop} [Decidable c] {result : Except Overrun Sent} {sent : Sent} {fits : Prop}
    (h : result = .ok sent ↔ fits) :
    ((if c then some <$> result else return none) : Except Overrun (Option Sent)) =
      .ok (if c then some sent else none) ↔ (c → fits) := by
  by_cases hc : c
  · rw [if_pos hc, if_pos hc, ← h, forall_prop_of_true hc]
    constructor
    · intro heq
      rcases result with e | sent'
      · cases heq
      · exact congrArg Except.ok (Option.some.inj (Except.ok.inj heq))
    · rintro rfl
      rfl
  · rw [if_neg hc, if_neg hc]
    exact iff_of_true rfl fun hc' => absurd hc' hc

/-- A number is printed exactly if it has few enough digits. -/
theorem printNumber_iff {size k : ℕ} {front : List Char} (hfront : '\x00' ∉ front) (hk : 0 < k)
    (hsize : size = k + (front.length + 2)) (n : ℕ) (pendingCmd : AtCmd) :
    printAndSend mem size (front ++ decimal n ++ ['\r']) pendingCmd = .ok ⟨front ++ decimal n ++ ['\r'], pendingCmd⟩ ↔
      n < 10 ^ k := by
  rw [printNumber_eq hfront, ← length_decimal hk]
  split
  · exact iff_of_true rfl (by omega)
  · exact iff_of_false (by simp) (by omega)

theorem battery_iff (link : Link) (battLevel : ℕ) :
    hfpCsrFeaturesHandleBatteryLevelReq mem link battLevel = .ok (csrBatCmd link battLevel) ↔
      (csrFeatureEnabled link CsrFeatures.battLevel = true → battLevel < 100) :=
  guarded_iff (@printNumber_iff mem 15 2 _ (by decide) (by decide) rfl battLevel .csrBat)

theorem power_eq (link : Link) (pwrStatus : PowerStatus) :
    hfpCsrFeaturesHandlePowerSourceReq mem link pwrStatus = .ok (csrPwrCmd link pwrStatus) := by
  refine (guarded_iff (@printNumber_iff mem 15 3 _ (by decide) (by decide) rfl pwrStatus.value .csrPwr)).mpr fun _ => ?_
  cases pwrStatus <;> decide

theorem getSms_eq (link : Link) {index : ℕ} (h : index < 65536) :
    hfpHandleCsrGetSmsReq mem link index = .ok (csrGetSmsCmd link index) :=
  (guarded_iff (@printNumber_iff mem 20 5 _ (by decide) (by decide) rfl index .csrGetSms)).mpr fun _ =>
    Nat.lt_of_lt_of_le h (by decide)

variable {link : Link}

theorem brsf_eq (h : link.hfSupportedFeatures < 65536) :
    hfpHandleBrsfRequest mem link = .ok (brsfCmd link) :=
  (@printNumber_iff mem 15 5 _ (by decide) (by decide) rfl link.hfSupportedFeatures .brsf).mpr
    (Nat.lt_of_lt_of_le h (by decide))

/-- The action of a call hold command has one digit. -/
theorem action_digit (action : ChldAction) : (chldStart ++ decimal action.value).length = 9 ∧
    '\x00' ∉ chldStart ++ decimal action.value := by
  cases action <;> decide

theorem chld_iff (link : Link) (action : ChldAction) (callIdx : ℕ) :
    hfpSendChldCmd mem link action callIdx = .ok (chldCmd link action callIdx) ↔
      (chldPending link action callIdx ≠ none → HasEcc link → callIdx ≠ 0 → callIdx < 10) := by
  obtain ⟨hlength, hend⟩ := action_digit action
  rw [hfpSendChldCmd, chldCmd, chldPending]
  rcases hfpCheckCallActionState link action callIdx with - | pendingCmd
  · rw [ite_self]
    exact iff_of_true rfl fun h => absurd rfl h
  dsimp only
  by_cases htwc : hfFeatureEnabled link 1 ∧ agFeatureEnabled link 0
  · rw [if_pos htwc, if_pos htwc, Option.bind_some, forall_prop_of_true (Option.some_ne_none pendingCmd)]
    by_cases hidx : callIdx = 0
    · rw [if_neg (not_not.mpr hidx), if_pos hidx]
      have hfits := (@printNumber_iff mem 12 2 chldStart (by decide) (by decide) rfl action.value pendingCmd).mpr
        (by cases action <;> decide)
      rw [hfits]
      exact iff_of_true rfl fun _ h => absurd hidx h
    · rw [if_pos hidx, if_neg hidx, forall_prop_of_true hidx]
      exact guarded_iff (@printNumber_iff mem 12 1 _ hend (by decide) (by rw [hlength]) callIdx pendingCmd)
  · rw [if_neg htwc, if_neg htwc]
    exact iff_of_true rfl fun h => absurd rfl h

/-- The features are printed with one digit each. -/
theorem csrSf_eq (h : link.csrFeatures.Valid) : hfpCsrFeaturesReq mem link = .ok (csrSfCmd link) := by
  obtain ⟨⟨h1, h2, h3, h4, h5⟩, h6, h7⟩ := h
  have hdigit : ∀ n, n < 10 → (decimal n).length = 1 := by
    intro n hn
    have hle := (@length_decimal n 1 (by decide)).mpr hn
    have hpos := length_decimal_pos n
    omega
  have hd1 := hdigit link.csrFeatures.callerName (by omega)
  have hd2 := hdigit link.csrFeatures.rawText (by omega)
  have hd3 := hdigit link.csrFeatures.sms (by omega)
  have hd4 := hdigit link.csrFeatures.battLevel (by omega)
  have hd5 := hdigit link.csrFeatures.pwrSource (by omega)
  have hd6 := hdigit link.csrFeatures.codecs (by omega)
  have hd7 := hdigit link.csrFeatures.codecBandwidths (by omega)
  refine (@guarded_iff _ _ _ _ True (iff_of_true ?_ trivial)).mpr fun _ => trivial
  have hcommas : [','].intercalate (link.csrFeatures.toList.map decimal) =
      decimal link.csrFeatures.callerName ++ [','] ++ decimal link.csrFeatures.rawText ++ [','] ++
      decimal link.csrFeatures.sms ++ [','] ++ decimal link.csrFeatures.battLevel ++ [','] ++
      decimal link.csrFeatures.pwrSource ++ [','] ++ decimal link.csrFeatures.codecs ++ [','] ++
      decimal link.csrFeatures.codecBandwidths := by
    simp [CsrFeatures.toList, List.intercalate]
  rw [hcommas, printAndSend_eq, if_pos]
  · simp only [append_assoc]
  · simp only [length_append, length_cons, length_nil, hd1, hd2, hd3, hd4, hd5, hd6, hd7]
    decide
  · simp only [mem_append, no_end_in_decimal, or_false]
    decide

/-- The array of `AT+BAC` in which a text has been printed. -/
def printed (mem : ℕ → Char) (text : List Char) : List Char := text ++ '\x00' :: (declared mem 20).drop (text.length + 1)

/-- The next text is printed over the end of the last one. -/
theorem sprintf_printed {text more : List Char} (h : text.length + more.length < 20) :
    sprintf (printed mem text) text.length more = .ok (printed mem (text ++ more)) := by
  have hback : ('\x00' :: (declared mem 20).drop (text.length + 1)).length = 20 - text.length := by
    rw [length_cons, length_drop, length_declared]
    omega
  have hlen : (more ++ ['\x00']).length = more.length + 1 := by rw [length_append, length_singleton]
  have hdrop : text.length + 1 + more.length = text.length + more.length + 1 := by omega
  rw [sprintf, printed, write_behind (by rw [hlen, hback]; omega) rfl, hlen, drop_succ_cons, drop_drop, hdrop,
    printed, append_assoc, append_assoc, length_append]
  rfl

/-- The last character is replaced, and the command is handed over. -/
theorem send_printed (mem : ℕ → Char) (text : List Char) (c : Char) :
    (do let bacReq ← sprintf (printed mem (text ++ [c])) ((text ++ [c]).length - 1) ['\r']
        hfpSendAtCmd (text ++ [c]).length bacReq .bac) = .ok ⟨text ++ ['\r'], .bac⟩ := by
  have hlen : (text ++ [c]).length = text.length + 1 := by rw [length_append, length_singleton]
  have hsplit : printed mem (text ++ [c]) = text ++ (c :: '\x00' :: (declared mem 20).drop (text.length + 2)) := by
    rw [printed, hlen, append_assoc]
    rfl
  have hwrite := @write_behind text (c :: '\x00' :: (declared mem 20).drop (text.length + 2)) ['\r', '\x00']
    (by simp) _ rfl
  rw [hsplit, hlen, Nat.add_sub_cancel, sprintf]
  change (write _ text.length ['\r', '\x00'] >>= _) = _
  have harray : text ++ (['\r', '\x00'] ++ (c :: '\x00' :: (declared mem 20).drop (text.length + 2)).drop 2) =
      (text ++ ['\r']) ++ ('\x00' :: (declared mem 20).drop (text.length + 2)) := by simp
  have hlen' : text.length + 1 = (text ++ ['\r']).length := by rw [length_append, length_singleton]
  rw [hwrite, ok_bind, hfpSendAtCmd, if_pos (by simp), hlen']
  change Except.ok (Sent.mk ((text ++ (['\r', '\x00'] ++
    (c :: '\x00' :: (declared mem 20).drop (text.length + 2)).drop 2)).take (text ++ ['\r']).length) AtCmd.bac) = _
  rw [harray, List.take_left]

/-- A bit of the mask: its codec is printed if it is set. -/
theorem bacTurn_eq {codecs checkBit bit : ℕ} (hpos : 0 < codecs) (hbit : codecs &&& checkBit = bit) {text : List Char}
    (hroom : text.length + 2 < 20) (hid : (decimal (hfpWbsCodecMaskToCodecId bit)).length = 1) :
    bacTurn ⟨codecs, checkBit, printed mem text, text.length⟩ =
      if bit = 0 then .ok (some ⟨codecs, checkBit * 2 % 65536, printed mem text, text.length⟩)
      else .ok (some ⟨codecs - bit, checkBit * 2 % 65536,
        printed mem (text ++ (decimal (hfpWbsCodecMaskToCodecId bit) ++ [','])),
        (text ++ (decimal (hfpWbsCodecMaskToCodecId bit) ++ [','])).length⟩) := by
  have hlen : (decimal (hfpWbsCodecMaskToCodecId bit) ++ [',']).length = 2 := by
    rw [length_append, hid, length_singleton]
  rw [bacTurn, if_pos hpos]
  dsimp only
  rw [hbit]
  by_cases hzero : bit = 0
  · rw [if_neg (not_not.mpr hzero), if_pos hzero, hzero]
    rfl
  · rw [if_pos hzero, if_neg hzero, sprintf_printed (by rw [hlen]; exact hroom), ok_bind, hlen,
      Nat.mod_eq_of_lt (Nat.lt_trans hroom (by decide)), @List.length_append _ text, hlen]
    rfl

/-- The codecs of a mask are printed behind the start of the command. -/
theorem bacLoop_eq {codecs : ℕ} (h : codecs < 4) :
    ∃ b, Lib.loop Overrun.endless bacTurn 17 ⟨codecs, 1, printed mem bacStart, bacStart.length⟩ = .ok b ∧
      b.bacReq = printed mem (bacText codecs) ∧ b.charIdx = (bacText codecs).length := by
  have hone : bacStart ++ (decimal (hfpWbsCodecMaskToCodecId 1) ++ [',']) = bacText 1 := by decide
  have htwo : bacStart ++ (decimal (hfpWbsCodecMaskToCodecId 2) ++ [',']) = bacText 2 := by decide
  have hboth : bacText 1 ++ (decimal (hfpWbsCodecMaskToCodecId 2) ++ [',']) = bacText 3 := by decide
  -- the turns for the two bits
  have hturn := @bacTurn_eq mem 1 1 1 (by decide) (by decide) bacStart (by decide) (by decide)
  have hskip := @bacTurn_eq mem 2 1 0 (by decide) (by decide) bacStart (by decide) (by decide)
  have hturn' := @bacTurn_eq mem 2 2 2 (by decide) (by decide) bacStart (by decide) (by decide)
  have hfirst := @bacTurn_eq mem 3 1 1 (by decide) (by decide) bacStart (by decide) (by decide)
  have hsecond := @bacTurn_eq mem 2 2 2 (by decide) (by decide) (bacText 1) (by decide) (by decide)
  rw [if_neg (by decide), hone] at hturn hfirst
  rw [if_pos rfl] at hskip
  rw [if_neg (by decide), htwo] at hturn'
  rw [if_neg (by decide), hboth] at hsecond
  obtain rfl | rfl | rfl | rfl : codecs = 0 ∨ codecs = 1 ∨ codecs = 2 ∨ codecs = 3 := by omega
  · exact ⟨_, loop_stop rfl _, rfl, rfl⟩
  · exact ⟨_, (loop_turn hturn _).trans (loop_stop rfl _), rfl, rfl⟩
  · exact ⟨_, (loop_turn hskip _).trans ((loop_turn hturn' _).trans (loop_stop rfl _)), rfl, rfl⟩
  · exact ⟨_, (loop_turn hfirst _).trans ((loop_turn hsecond _).trans (loop_stop rfl _)), rfl, rfl⟩

/-- The codecs of every mask fit. -/
theorem bac_eq (h : link.wbsCodecMask < 4) : hfpHandleBacRequest mem link = .ok (bacCmd link) := by
  rw [hfpHandleBacRequest, bacCmd]
  by_cases hguard : agFeatureEnabled link 9 ∧ hfFeatureEnabled link 7
  · rw [if_pos hguard, if_pos hguard]
    have hstart : sprintf (declared mem 20) 0 bacStart = .ok (printed mem bacStart) := rfl
    obtain ⟨b, hb, harray, hidx⟩ := @bacLoop_eq mem _ h
    rcases eq_nil_or_concat (bacText link.wbsCodecMask) with hnil | ⟨text, c, htext⟩
    · exact absurd (append_eq_nil_iff.mp hnil).1 (by decide)
    · rw [concat_eq_append] at htext
      have hsend := send_printed mem text c
      rw [hstart, ok_bind, hb, ok_bind, harray, hidx, htext, dropLast_concat]
      obtain ⟨array, hprint, hsend⟩ := exists_of_bind_eq_ok hsend
      rw [hprint, ok_bind, hsend]
      rfl
  · rw [if_neg hguard, if_neg hguard]
    rfl

/-- Every command is exact, and fits its array, exactly if the dial command has fewer than 256 characters, a battery level
that is sent is below 100, and the index of a call that is sent is below 10; the other commands always are. -/
theorem commands_iff (mem : ℕ → Char) (link : Link) (hlink : link.Valid) :
    (∀ memory number, createDialCmd mem memory number = .ok (dialCmd memory number) ↔
      (dialText memory number).length < 256) ∧
    (∀ battLevel, hfpCsrFeaturesHandleBatteryLevelReq mem link battLevel = .ok (csrBatCmd link battLevel) ↔
      (csrFeatureEnabled link CsrFeatures.battLevel = true → battLevel < 100)) ∧
    (∀ action callIdx, hfpSendChldCmd mem link action callIdx = .ok (chldCmd link action callIdx) ↔
      (chldPending link action callIdx ≠ none → HasEcc link → callIdx ≠ 0 → callIdx < 10)) ∧
    (∀ pwrStatus, hfpCsrFeaturesHandlePowerSourceReq mem link pwrStatus = .ok (csrPwrCmd link pwrStatus)) ∧
    (∀ index, index < 65536 → hfpHandleCsrGetSmsReq mem link index = .ok (csrGetSmsCmd link index)) ∧
    hfpCsrFeaturesReq mem link = .ok (csrSfCmd link) ∧ hfpHandleBrsfRequest mem link = .ok (brsfCmd link) ∧
      hfpHandleBacRequest mem link = .ok (bacCmd link) :=
  ⟨dial_iff, battery_iff link, chld_iff link, power_eq link, fun _ => getSms_eq link, csrSf_eq hlink.csr, brsf_eq hlink.hf,
    bac_eq hlink.wbs⟩

/-- A link on which everything is enabled. -/
def fullLink : Link where
  hfSupportedFeatures := 0xFF
  agSupportedFeatures := 0x3FF
  csrFeatures := ⟨1, 1, 1, 1, 1, 7, 3⟩
  agCsrFeatures := ⟨1, 1, 1, 1, 1, 7, 3⟩
  agCsrFeaturesEnabled := true
  agCallState := .multiparty
  wbsCodecMask := 3

/-- A number of ten digits, a battery level of one and the second call. -/
theorem commands_fullLink : createDialCmd (fun _ => '?') false (List.replicate 10 '5') =
      .ok (dialCmd false (List.replicate 10 '5')) ∧
    hfpCsrFeaturesHandleBatteryLevelReq (fun _ => '?') fullLink 9 = .ok (csrBatCmd fullLink 9) ∧
    hfpSendChldCmd (fun _ => '?') fullLink .releaseActiveAcceptOther 2 =
      .ok (chldCmd fullLink .releaseActiveAcceptOther 2) := by
  obtain ⟨hdial, hbattery, hchld, -⟩ := commands_iff (fun _ => '?') fullLink
    ⟨by decide, ⟨by decide, by decide, by decide⟩, by decide⟩
  exact ⟨(hdial false (List.replicate 10 '5')).mpr (by decide), (hbattery 9).mpr fun _ => by decide,
    (hchld .releaseActiveAcceptOther 2).mpr fun _ _ _ => by decide⟩

/-- A number of 251 digits is written behind a block of no octets, and a level of three digits and a call index of two are
printed behind their arrays. -/
theorem not_commands : createDialCmd (fun _ => '?') false (List.replicate 251 '5') ≠
      .ok (dialCmd false (List.replicate 251 '5')) ∧
    hfpCsrFeaturesHandleBatteryLevelReq (fun _ => '?') fullLink 100 ≠ .ok (csrBatCmd fullLink 100) ∧
    hfpSendChldCmd (fun _ => '?') fullLink .releaseActiveAcceptOther 10 ≠
      .ok (chldCmd fullLink .releaseActiveAcceptOther 10) := by
  decide +kernel

end Cbps.Hfp.Commands
