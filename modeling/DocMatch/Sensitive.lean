/-!
Values that may be used but not shown. Whatever is asked to show one shows the same mark.
-/

namespace DocMatch

structure Sensitive (α : Type) where
  /-- The value itself, for use and not for show. -/
  expose : α

namespace Sensitive

variable {α : Type}

def mark : String := "***REDACTED***"

def text (_ : Sensitive α) : String := mark

theorem text_eq (s t : Sensitive α) : s.text = t.text := rfl

instance : ToString (Sensitive α) := ⟨text⟩

instance : Repr (Sensitive α) := ⟨fun s _ => s.text⟩

end Sensitive

end DocMatch
