/-
  Commands beside programs.

  A command begins with a dot and a name, a program with anything but a dot that is
  no part of a number: what is typed is the one or the other, or neither.  The
  prompt asks for a command first and so never takes a program for one.

  * `Refuses`: readers that complain of the token at hand;
  * `Program.ofText?_dot`: a dot begins no program;
  * `Command.exists_dot`: a command begins with one;
  * `commands_hide_no_program`: no text is both, and programs are run.
-/
import Requisite.Proofs.Trimming
import Requisite.Prompt.Session

namespace Requisite.Source

open Requisite

/-! ## Tokens that begin nothing -/

section
variable {α β : Type} {p : Parse α} {i : Input} {c : Complaint}

/-- The reader fails on the line of the token at hand. -/
def Refuses (p : Parse α) (i : Input) (c : Complaint) : Prop :=
  p.run i = .error ⟨c, i.current.start.line⟩

theorem Refuses.bind (h : Refuses p i c) (k : α → Parse β) : Refuses (p >>= k) i c := by
  rw [Refuses, StateT.run_bind, h]
  rfl

/-- After a look at the token at hand, the reader goes on with what it makes of it. -/
theorem refuses_token_bind {k : Token → Parse β} :
    Refuses (Reading.token >>= k) i c ↔ Refuses (k i.current.token) i c := .rfl

theorem refuses_input_bind {k : Input → Parse β} :
    Refuses (Reading.input >>= k) i c ↔ Refuses (k i) i c := .rfl

end

section
variable {i : Input} (hdot : i.current.token = .symbol .dot) (limit : Nat)
include hdot

theorem refuses_primary (inner : Nested) :
    Refuses (primary limit inner) i (.unexpected (.symbol .dot)) := by
  rw [primary, refuses_token_bind, hdot]
  rfl

theorem refuses_unary (inner : Nested) :
    Refuses (unary limit inner) i (.unexpected (.symbol .dot)) := by
  rw [unary, refuses_token_bind, hdot]
  exact (refuses_primary hdot limit inner).bind _

theorem refuses_operators (inner : Nested) (level : Nat) :
    Refuses (operators limit inner level) i (.unexpected (.symbol .dot)) := by
  induction level with
  | zero => exact refuses_unary hdot limit inner
  | succ level ih => exact ih.bind _

theorem refuses_assignment (inner : Nested) :
    Refuses (assignment limit inner) i (.unexpected (.symbol .dot)) :=
  ((refuses_operators hdot limit inner Infix.loosest).bind _).bind _

theorem refuses_statement {inner : Nested}
    (hinner : Refuses inner.assignment i (.unexpected (.symbol .dot))) :
    Refuses (statement limit inner) i (.unexpected (.symbol .dot)) := by
  rw [statement, refuses_input_bind]
  dsimp only
  rw [hdot]
  exact hinner.bind _

/-- A statement nests an assignment, which takes two levels. -/
theorem refuses_nested (n : Nat) :
    Refuses (nested limit (n + 2)).statement i (.unexpected (.symbol .dot)) :=
  refuses_statement hdot limit (refuses_assignment hdot limit _)

end

/-! ## Texts that begin with a dot -/

/-- No tokens that begin with a dot are a program. -/
theorem Program.ofLexemes?_dot {l : Lexeme} (hdot : l.token = .symbol .dot) (ls : List Lexeme) :
    ofLexemes? (l :: ls) = .error ⟨.unexpected (.symbol .dot), l.start.line⟩ := by
  have hstatement : Refuses (nested (l :: ls).length maxDepth).statement ⟨l, ls⟩
      (.unexpected (.symbol .dot)) := refuses_nested hdot _ (maxDepth - 2)
  have hprogram : Refuses (program (nested (l :: ls).length maxDepth).statement (l :: ls).length)
      ⟨l, ls⟩ (.unexpected (.symbol .dot)) := by
    rw [List.length_cons, program, refuses_token_bind, if_neg (by rw [hdot]; decide)]
    exact hstatement.bind _
  rw [ofLexemes?, StateT.run'_eq]
  exact congrArg (Prod.fst <$> ·) hprogram

/-- No text that begins with a dot is a program, whatever comes after it, unless a digit does. -/
theorem Program.ofText?_dot {s : String} {ws rest : List Char} (hws : ∀ c ∈ ws, isBlank c)
    (hdigit : startsWithDigit rest = false) (hs : s.toList = ws ++ '.' :: rest) :
    ofText? s = .error ⟨.unexpected (.symbol .dot), 1 + ws.count '\n'⟩ := by
  have hline : (Place.start.after ws).line = 1 + ws.count '\n' := Place.line_after_eq ..
  have hlayout : layoutLength (ws ++ '.' :: rest) = ws.length := by
    rw [layoutLength_append hws, layoutLength_eq_zero rfl, Nat.add_zero]
  have hdrop : (ws ++ '.' :: rest).drop (layoutLength (ws ++ '.' :: rest)) = '.' :: rest := by
    rw [hlayout, List.drop_left]
  have hscan : Token.scan '.' rest = (.symbol .dot, 0) := if_neg (by simp [hdigit])
  rw [ofText?, Lexeme.ofText, hs, Lexeme.ofChars_cons hdrop hscan, ofLexemes?_dot rfl]
  simp only [hlayout, List.take_left, hline]

/-- A text of white space is the program without statements. -/
theorem Program.ofText?_blank {s : String} (hs : ∀ c ∈ s.toList, isBlank c) :
    ofText? s = .ok [] := by
  have hlayout := layoutLength_append hs []
  rw [List.append_nil, @layoutLength_eq_zero [] rfl, Nat.add_zero] at hlayout
  have hdrop : s.toList.drop (layoutLength s.toList) = [] := by rw [hlayout, List.drop_length]
  rw [ofText?, Lexeme.ofText, Lexeme.ofChars_nil hdrop]
  rfl

end Requisite.Source

namespace Requisite.Prompt

open Requisite Source Machine

/-! ## Commands -/

/-- A command begins with a dot, and not with a digit after it. -/
theorem Command.exists_dot {s : String} {c : Command} {argument : Option String}
    (h : ofText? s = some (c, argument)) :
    ∃ rest, trim s.toList = '.' :: rest ∧ ∃ d ds, rest = d :: ds ∧ d.isDigit = false := by
  have hdigits : ∀ n ∈ List.range' 48 10, (Char.ofNat n).toLower = Char.ofNat n ∧
      ∀ c ∈ all, ∀ x ∈ c.names, Char.ofNat n ∉ x.toList := by decide
  unfold ofText? at h
  split at h
  · next rest hrest =>
    simp only [Option.bind_eq_bind, Option.bind_eq_some_iff] at h
    obtain ⟨_, hname, -⟩ := h
    refine ⟨rest, hrest, ?_⟩
    cases rest with
    | nil =>
      have hnone : named? (String.ofList []) = none := by decide
      exact nomatch hnone.symm.trans hname
    | cons d ds =>
      refine ⟨d, ds, rfl, Bool.eq_false_iff.2 fun hd => ?_⟩
      obtain ⟨hlower, hnames⟩ := hdigits d.toNat (toNat_mem_of_isDigit hd)
      rw [Char.ofNat_toNat] at hlower hnames
      refine notMem_of_named? hname hlower hnames ?_
      simp [isBlank_of_isDigit hd]
  · cases h

/-- A command is no program, whatever its argument: the parser does not expect the dot, and says so
    on its line. -/
theorem Command.malformed {s : String} {c : Command} {argument : Option String}
    (h : ofText? s = some (c, argument)) :
    ∃ before rest, s.toList = before ++ '.' :: rest ∧ (∀ d ∈ before, isBlank d) ∧
      Program.ofText? s = .error ⟨.unexpected (.symbol .dot), 1 + before.count '\n'⟩ := by
  obtain ⟨_, hdot, d, ds, rfl, hd⟩ := exists_dot h
  obtain ⟨before, after, hs, hbefore, -⟩ := exists_trim s.toList
  rw [hdot] at hs
  have hdigit : startsWithDigit (d :: (ds ++ after)) = false := hd
  exact ⟨before, d :: (ds ++ after), hs, hbefore, Program.ofText?_dot hbefore hdigit hs⟩

/-- A program is no command. -/
theorem Command.ofText?_of_program {s : String} {p : Program} (h : Program.ofText? s = .ok p) :
    ofText? s = none := by
  refine Option.eq_none_iff_forall_ne_some.2 fun ⟨c, argument⟩ hcommand => ?_
  obtain ⟨_, _, -, -, herror⟩ := malformed hcommand
  exact nomatch h.symm.trans herror

/-! ## Answers -/

/-- **Commands hide no program.**  A text that is a command is no program: the parser does not
    expect the dot that it begins with, and says so on its line.  A text that is a program is no
    command: the prompt runs it without the white space around it, and that is the same program.
    White space alone is not run; it is the program without statements. -/
theorem commands_hide_no_program (s : String) :
    (∀ c argument, Command.ofText? s = some (c, argument) →
      ∃ before rest, s.toList = before ++ '.' :: rest ∧ (∀ d ∈ before, isBlank d) ∧
        Program.ofText? s = .error ⟨.unexpected (.symbol .dot), 1 + before.count '\n'⟩) ∧
    ∀ p, Program.ofText? s = .ok p →
      Command.ofText? s = none ∧
      Program.outcome (.ofList (trim s.toList)) = Program.outcome s ∧
      ∀ fuel w,
        (trim s.toList ≠ [] →
          answer fuel w s.toList = .continue (evaluate fuel (.ofList (trim s.toList)) w)) ∧
        (trim s.toList = [] → p = [] ∧ answer fuel w s.toList = .continue w) := by
  refine ⟨fun c argument => Command.malformed, fun p hp => ?_⟩
  obtain ⟨q, hq⟩ := Program.exists_ofText?_trim hp
  refine ⟨Command.ofText?_of_program hp, Program.outcome_trim hp,
    fun fuel w => ⟨fun hne => ?_, fun hnil => ⟨?_, ?_⟩⟩⟩
  · have hsource : String.ofList (trim s.toList) ≠ "" := fun hempty =>
      hne (by simpa using congrArg String.toList hempty)
    simp only [answer, if_neg hsource, Command.ofText?_of_program hq]
  · obtain ⟨before, after, hs, hbefore, hafter⟩ := exists_trim s.toList
    have hblank : ∀ c ∈ s.toList, isBlank c := by
      rw [hs, hnil]
      exact List.forall_mem_append.2 ⟨hbefore, hafter⟩
    exact (Except.ok.inj ((Program.ofText?_blank hblank).symm.trans hp)).symm
  · rw [answer, hnil]
    rfl

/-- A command with more than a line after it, and a number that begins with its point. -/
theorem commands_hide_no_program_pointed :
    (Command.ofText? "\n.Version it's\n.5 + 1" = some (.version, some "it's\n.5 + 1") ∧
      ∃ before rest, "\n.Version it's\n.5 + 1".toList = before ++ '.' :: rest ∧
        (∀ d ∈ before, isBlank d) ∧ Program.ofText? "\n.Version it's\n.5 + 1" =
          .error ⟨.unexpected (.symbol .dot), 1 + before.count '\n'⟩) ∧
    ∃ p, Program.ofText? " .5 + 1\n" = .ok p ∧ Command.ofText? " .5 + 1\n" = none ∧
      ∀ fuel w, answer fuel w " .5 + 1\n".toList = .continue (evaluate fuel ".5 + 1" w) := by
  have hcommand : Command.ofText? "\n.Version it's\n.5 + 1" =
      some (.version, some "it's\n.5 + 1") := by decide +kernel
  have hlexemes : Lexeme.ofText " .5 + 1\n" =
      [⟨.number ⟨0x3fe0000000000000⟩, ⟨1, 1⟩, ⟨3, 1⟩, false⟩, ⟨.symbol .plus, ⟨4, 1⟩, ⟨5, 1⟩, false⟩,
        ⟨.number .one, ⟨6, 1⟩, ⟨7, 1⟩, false⟩, ⟨.eof, ⟨8, 2⟩, ⟨8, 2⟩, true⟩] := by
    decide +kernel
  have hprogram : Program.ofText? " .5 + 1\n" =
      .ok [.expression (.binary .add (.number ⟨0x3fe0000000000000⟩) (.number .one))] :=
    Program.ofText?_of_lexemes hlexemes rfl
  have htrim : trim " .5 + 1\n".toList = ".5 + 1".toList := by decide +kernel
  obtain ⟨hnone, -, hanswer⟩ := (commands_hide_no_program " .5 + 1\n").2 _ hprogram
  refine ⟨⟨hcommand, (commands_hide_no_program _).1 _ _ hcommand⟩, _, hprogram, hnone,
    fun fuel w => ?_⟩
  have hrun := (hanswer fuel w).1 (by rw [htrim]; decide)
  rwa [htrim, String.ofList_toList] at hrun

/-- **White space is not run**, though it is a program, whose value the prompt would print. -/
theorem blank_not_run :
    ¬ ∀ s p, Program.ofText? s = .ok p → ∀ fuel w,
      answer fuel w s.toList = .continue (evaluate fuel (.ofList (trim s.toList)) w) := by
  intro hruns
  have hprogram : Program.ofText? "" = .ok [] := Program.ofText?_blank nofun
  have hworld : World.bare = evaluate 1 "" .bare :=
    Next.continue.inj (hruns "" [] hprogram 1 .bare)
  have hprinted : (evaluate 1 "" .bare).stdout = dimmed (Colour.blue.paint "undefined") ++ "\n" := by
    unfold evaluate evalText parseText
    rw [hprogram]
    rfl
  have hstdout := congrArg World.stdout hworld
  rw [hprinted] at hstdout
  exact absurd hstdout (by decide)

end Requisite.Prompt
