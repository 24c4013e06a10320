import DocMatch.Utf8

/-!
Text without what steers a terminal. A control sequence begins with an escape character and is not
shown. A line break or a tab inside a sequence is, and the text after it is shown as well, until a
byte that cannot be shown takes the sequence up where it was left. Strings meant for a device or an
operating system are left out up to the mark that ends them. Main definition: `visible`.
-/

namespace DocMatch.Text.Terminal

inductive Stage where
  | begun
  | parameters
  | intermediates
  | malformed
  deriving DecidableEq, Repr

/-- The stage after one more byte. A sequence is over with the first letter. -/
def Stage.next? (stage : Stage) (b : UInt8) : Option Stage :=
  if 0x40 ≤ b && b ≤ 0x7e then none
  else if 0x20 ≤ b && b ≤ 0x2f then
    some (if stage = malformed then malformed else intermediates)
  else if 0x30 ≤ b && b ≤ 0x3f then
    some (match stage with
      | begun => parameters
      | parameters => if b ≤ 0x3b then parameters else malformed
      | intermediates | malformed => malformed)
  else some stage

inductive State where
  | ground
  /-- Within a character of more than one byte. -/
  | character
  | escape
  | escapeIntermediates
  | control (stage : Stage)
  | device (stage : Stage)
  | deviceText
  | systemCommand
  | message
  deriving DecidableEq, Repr

namespace State

def begun (b : UInt8) : State :=
  if 0x20 ≤ b && b ≤ 0x2f then escapeIntermediates
  else if b = byte '[' then control .begun
  else if b = byte 'P' then device .begun
  else if b = byte ']' then systemCommand
  else if b = byte 'X' || b = byte '^' || b = byte '_' then message
  else if 0x30 ≤ b && b ≤ 0x7e then ground
  else escape

def next (state : State) (b : UInt8) : State :=
  if b = 0x1b then escape
  else if b = 0x18 || b = 0x1a then ground
  else
    match state with
    | ground | character => ground
    | escape => begun b
    | escapeIntermediates => if 0x30 ≤ b && b ≤ 0x7e then ground else state
    | control stage => (stage.next? b).elim ground control
    | device stage =>
      (stage.next? b).elim (if stage = .malformed then state else deviceText) device
    | systemCommand => if b = 0x07 then ground else state
    | deviceText | message => if b = 0x9c then ground else state

def showsBreaks : State → Bool
  | device _ | deviceText | systemCommand | message => false
  | _ => true

end State

def isBreak (b : UInt8) : Bool := b = 0x09 || b = 0x0a || b = 0x0c || b = 0x0d

def isPlain (b : UInt8) : Bool := (0x20 ≤ b && b ≤ 0x7e) || isBreak b

def isLead (b : UInt8) : Bool := 0xc2 ≤ b && b ≤ 0xf4

structure Screen where
  state : State
  /-- Whether the byte before has been shown. -/
  showing : Bool
  deriving DecidableEq, Repr

namespace Screen

def initial : Screen := ⟨.ground, true⟩

def step (s : Screen) (b : UInt8) : Screen × Bool :=
  if s.state = .character && Utf8.isTail b then (s, true)
  else if s.showing && isPlain b then (s, true)
  else if isLead b && (s.showing || s.state = .ground) then (⟨.character, true⟩, true)
  else
    let shown := if s.state = .ground then isPlain b else isBreak b && s.state.showsBreaks
    (⟨s.state.next b, shown⟩, shown)

theorem step_of_isPlain {b : UInt8} (h : isPlain b = true) : initial.step b = (initial, true) := by
  simp [step, initial, h]

def shown (s : Screen) : Bytes → Bytes
  | [] => []
  | b :: t => if (s.step b).2 then b :: (s.step b).1.shown t else (s.step b).1.shown t

theorem shown_nil (s : Screen) : s.shown [] = [] := rfl

theorem shown_of_isPlain {t : Bytes} (h : ∀ b ∈ t, isPlain b = true) : initial.shown t = t := by
  induction t with
  | nil => rfl
  | cons b t ih =>
    have hb := step_of_isPlain (h b (by simp))
    simp [shown, hb, ih fun x hx => h x (by simp [hx])]

end Screen

def visible (text : String) : String := Utf8.lossy (Screen.initial.shown (Bytes.ofString text))

end DocMatch.Text.Terminal
