import StoredProc.Diagnostic
import StoredProc.Settings
import StoredProc.Statement

/-!
The Python that a statement stands for. A procedure becomes a function
of its input parameters, whose body is one `try` block; what happens
when the script itself runs, printing and declaring, leaves no code.
Every piece is a number of whole lines, and a literal stays on its line.
There is no code where one of the margins cannot be made.
-/

namespace StoredProc

namespace Python

def escape (c : Char) : Text :=
  if c = '\\' then "\\\\".toList
  else if c = '"' then "\\\"".toList
  else if c = '\n' then "\\n".toList
  else if c = '\r' then "\\r".toList
  else if c = '\t' then "\\t".toList
  else [c]

def quote (text : Text) : Text := '"' :: text.flatMap escape ++ ['"']

end Python

/-- The code of a statement, as far as margins are concerned. It is empty
or ends with a line feed. -/
def Statement.code (settings : Settings) : Statement → Text
  | procedure header =>
      "def ".toList ++ header.name.name ++ '(' :: Text.join ", ".toList header.inputs ++
        "):\n".toList
  | blockStart _ => settings.indent 1 ++ "try:\n".toList
  | assignment _ var literal =>
      settings.indent 2 ++ var.name ++ " = ".toList ++ Python.quote literal ++ ['\n']
  | execute _ sql =>
      settings.indent 2 ++ settings.connection ++ ".execute(".toList ++ sql.name ++
        ")\n".toList
  | blockEnd _ =>
      settings.indent 1 ++ "except Exception as error:\n".toList ++
        settings.indent 2 ++ settings.logger ++ ".error(error)\n".toList
  | print _ _ => []
  | declaration _ _ _ => []
  | blank _ => []

def Statement.depths : Statement → List UInt64
  | blockStart _ => [1]
  | assignment _ _ _ => [2]
  | execute _ _ => [2]
  | blockEnd _ => [1, 2]
  | procedure _ => []
  | print _ _ => []
  | declaration _ _ _ => []
  | blank _ => []

def Settings.Spells (settings : Settings) (statement : Statement) : Prop :=
  ∀ depth ∈ statement.depths, settings.Makes depth

instance (settings : Settings) (statement : Statement) : Decidable (settings.Spells statement) :=
  List.decidableBAll settings.Makes statement.depths

def Statement.translate (settings : Settings) (statement : Statement) : Except Diagnostic Text :=
  if settings.Spells statement then .ok (statement.code settings) else .error .capacity

theorem Statement.toNat_le_of_mem_depths {statement : Statement} {depth : UInt64}
    (h : depth ∈ statement.depths) : depth.toNat ≤ 2 := by
  have hdepth : depth = 1 ∨ depth = 2 := by
    cases statement with
    | blockStart | assignment | execute | blockEnd => simp_all [depths]
    | procedure | print | declaration | blank => cases h
  rcases hdepth with rfl | rfl <;> decide

/-- No code is deeper than two levels, so there is code for every
statement where two levels fit. -/
theorem Settings.spells_of_le {settings : Settings}
    (h : settings.indentWidth.toNat * 2 ≤ maxMargin) (statement : Statement) :
    settings.Spells statement := by
  intro depth hmem
  have hdepth := Statement.toNat_le_of_mem_depths hmem
  exact makes_of_le (Nat.le_trans (Nat.mul_le_mul_left _ hdepth) h)

theorem Settings.spells_standard (statement : Statement) : standard.Spells statement :=
  spells_of_le (by decide) statement

end StoredProc
