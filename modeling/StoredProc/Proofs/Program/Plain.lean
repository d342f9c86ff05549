import StoredProc.Program
import StoredProc.Proofs.Scanner.Invariant

/-!
Operations that are put together from a few others: looking at a token,
taking one, passing raw text, and failing. Such an operation is *plain*.
It does to a scanner what these do and nothing else; above all, it puts
no event on the trace that is not about a token or about raw text.

Reading a statement is plain. The proofs list the parts of each form, and
are the only place where the forms are opened: whatever the few
operations keep is then kept by all of reading (`Scan.Plain.keeps`).
-/

namespace StoredProc

open Scan Statement.Parse

namespace Scan

/-- Put together from looking, taking, passing raw text and failing. -/
inductive Plain : {α : Type} → Scan α → Prop
  | pure {α : Type} (a : α) : Plain (pure a : Scan α)
  | throw {α : Type} (e : SyntaxError) : Plain (throw e : Scan α)
  | next : Plain next
  | peek : Plain peek
  | rawUntil (delimiter : Char) : Plain (rawUntil delimiter)
  | bind {α β : Type} {m : Scan α} {k : α → Scan β} (hm : Plain m) (hk : ∀ a, Plain (k a)) :
      Plain (m >>= k)
  | many {α : Type} {step : Scan (Option α)} (hadvancing : Advancing step) (h : Plain step) :
      Plain (many step hadvancing)

/-- What the few operations keep, every plain operation keeps. -/
theorem Plain.keeps {α : Type} {m : Scan α} {inv : Scanner → Prop}
    {fault : SyntaxError → Scanner → Prop} (h : Plain m) (hnext : Keeps inv fault Scan.next)
    (hpeek : Keeps inv fault Scan.peek) (hraw : ∀ d, Keeps inv fault (Scan.rawUntil d))
    (hthrow : ∀ {s}, inv s → ∀ e, fault e s) : Keeps inv fault m := by
  induction h with
  | pure a => exact keeps_pure a
  | throw e =>
      refine ⟨?_, ?_⟩
      · intro s a t hs h
        cases h
      · intro s e t hs h
        cases h
        exact hthrow hs _
  | next => exact hnext
  | peek => exact hpeek
  | rawUntil d => exact hraw d
  | bind hm hk ihm ihk => exact ihm.bind ihk
  | many hadvancing h ih => exact keeps_many hadvancing ih

/-! ### Parts of a form -/

theorem plain_expect (kind : Kind) : Plain (expect kind) := by
  refine .bind .next fun token => ?_
  split
  · exact .pure token
  · exact .throw _

theorem plain_peekKind : Plain peekKind := .bind .peek fun _ => .pure _

theorem plain_skipBlank : Plain skipBlank := by
  refine .bind plain_peekKind fun kind => ?_
  split
  · exact .bind (plain_expect _) fun _ => .pure _
  · exact .pure _

theorem plain_expectSpaced (kind : Kind) : Plain (expectSpaced kind) :=
  .bind plain_skipBlank fun _ => plain_expect kind

theorem plain_unexpected {α : Type} (expected : Expectation) :
    Plain (unexpected expected : Scan α) :=
  .bind .peek fun _ => .throw _

theorem plain_sigilVariable : Plain sigilVariable :=
  .bind (plain_expect _) fun _ => .bind (plain_expect _) fun _ => .pure _

theorem plain_quoted (mark : Kind) (delimiter : Char) : Plain (quoted mark delimiter) :=
  .bind (plain_expect _) fun _ => .bind (.rawUntil _) fun _ => .bind (plain_expect _) fun _ =>
    .pure _

theorem plain_literal : Plain literal := by
  refine .bind plain_peekKind fun kind => ?_
  split
  · exact .bind (plain_expect _) fun _ => .pure _
  · exact .bind (plain_expect _) fun _ => .pure _
  · exact plain_quoted _ _
  · exact plain_quoted _ _
  · exact plain_unexpected _

theorem plain_valueType : Plain valueType := by
  refine .bind plain_peekKind fun kind => ?_
  split
  · refine .bind (plain_expect _) fun token => ?_
    split
    · exact .pure _
    · exact .throw _
  · exact plain_unexpected _

theorem plain_direction : Plain direction := by
  refine .bind plain_peekKind fun kind => ?_
  split
  · refine .bind (plain_expect _) fun token => ?_
    split
    · exact .pure _
    · exact .throw _
  · exact plain_unexpected _

theorem plain_param : Plain param :=
  .bind (plain_expectSpaced _) fun _ => .bind plain_skipBlank fun _ =>
    .bind plain_valueType fun _ => .bind plain_skipBlank fun _ =>
      .bind plain_direction fun _ => .pure _

theorem plain_nextParam : Plain nextParam := by
  refine .bind plain_skipBlank fun _ => .bind plain_peekKind fun kind => ?_
  split
  · exact .bind (plain_expect _) fun _ => .bind plain_param fun _ => .pure _
  · exact .pure _

theorem plain_params : Plain params :=
  .bind plain_param fun _ => .bind (.many _ plain_nextParam) fun _ => .pure _

/-! ### The forms -/

theorem plain_sigilAssignment : Plain sigilAssignment :=
  .bind plain_sigilVariable fun _ => .bind (plain_expectSpaced _) fun _ =>
    .bind plain_skipBlank fun _ => .bind plain_literal fun _ => .bind plain_skipBlank fun _ =>
      .pure _

theorem plain_procedureHeader : Plain procedureHeader :=
  .bind (plain_expect _) fun _ => .bind (plain_expectSpaced _) fun _ =>
    .bind (plain_expectSpaced _) fun _ => .bind (plain_expectSpaced _) fun _ =>
      .bind (plain_expectSpaced _) fun _ => .bind (plain_expectSpaced _) fun _ =>
        .bind plain_params fun _ => .bind (plain_expectSpaced _) fun _ =>
          .bind (plain_expectSpaced _) fun _ => .pure _

theorem plain_declarationOf (name : Token) : Plain (declarationOf name) :=
  .bind plain_valueType fun _ => .bind (plain_expectSpaced _) fun _ => .pure _

theorem plain_assignmentTo (name : Token) : Plain (assignmentTo name) :=
  .bind (plain_expect _) fun _ => .bind (plain_expect _) fun _ => .bind plain_skipBlank fun _ =>
    .bind plain_literal fun _ => .bind (plain_expectSpaced _) fun _ => .pure _

theorem plain_declarationOrAssignment : Plain declarationOrAssignment := by
  refine .bind (plain_expect _) fun name => .bind plain_skipBlank fun _ =>
    .bind plain_peekKind fun kind => ?_
  split
  · exact plain_declarationOf name
  · exact plain_declarationOf name
  · exact plain_assignmentTo name
  · exact plain_unexpected _

theorem plain_begin : Plain begin := .bind (plain_expect _) fun _ => .pure _

theorem plain_executeImmediate : Plain executeImmediate :=
  .bind (plain_expect _) fun _ => .bind (plain_expectSpaced _) fun _ =>
    .bind (plain_expectSpaced _) fun _ => .bind (plain_expectSpaced _) fun _ => .pure _

theorem plain_ending : Plain ending :=
  .bind (plain_expect _) fun _ => .bind (.rawUntil _) fun _ => .bind (plain_expect _) fun _ =>
    .pure _

theorem plain_blanks : Plain blanks := .bind (plain_expect _) fun _ => .pure _

theorem plain_printing : Plain printing :=
  .bind (plain_expect _) fun _ => .bind (plain_expectSpaced _) fun _ =>
    .bind plain_skipBlank fun _ => .bind plain_sigilVariable fun _ =>
      .bind (plain_expectSpaced _) fun _ => .bind plain_skipBlank fun _ => .pure _

theorem plain_parse : Plain Statement.parse := by
  refine .bind plain_peekKind fun kind => ?_
  split
  · exact plain_sigilAssignment
  · exact plain_procedureHeader
  · exact plain_declarationOrAssignment
  · exact plain_begin
  · exact plain_executeImmediate
  · exact plain_ending
  · exact plain_blanks
  · exact plain_printing
  · exact plain_unexpected _

end Scan

end StoredProc
