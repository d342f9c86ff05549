import StoredProc.Text.Basic

/-!
How generated code is spelled. No setting changes what a script means.
Widths and depths are machine words, so a margin can wrap around, and it
can be longer than any text is allowed to be.
-/

namespace StoredProc

/-- The spelling of generated code: spaces for each level, the object
that runs SQL, and the object that is told of errors. -/
structure Settings where
  indentWidth : UInt64
  connection : Text
  logger : Text
  deriving DecidableEq, Repr

namespace Settings

def standard : Settings := ⟨4, "connection".toList, "logging".toList⟩

def margin (settings : Settings) (depth : UInt64) : Nat := (settings.indentWidth * depth).toNat

def indent (settings : Settings) (depth : UInt64) : Text :=
  List.replicate (settings.margin depth) ' '

/-- The most bytes that one text can have. -/
def maxMargin : Nat := 0x7fffffffffffffff

def Makes (settings : Settings) (depth : UInt64) : Prop := settings.margin depth ≤ maxMargin

instance (settings : Settings) (depth : UInt64) : Decidable (settings.Makes depth) :=
  Nat.decLe _ _

theorem makes_iff {settings : Settings} {depth : UInt64} :
    settings.Makes depth ↔
      settings.indentWidth.toNat * depth.toNat % UInt64.size ≤ maxMargin := by
  rw [Makes, margin, UInt64.toNat_mul]

/-- The margins of narrow settings do not wrap around and can be made. -/
theorem makes_of_le {settings : Settings} {depth : UInt64}
    (h : settings.indentWidth.toNat * depth.toNat ≤ maxMargin) : settings.Makes depth :=
  makes_iff.mpr (Nat.le_trans (Nat.mod_le _ _) h)

end Settings

end StoredProc
