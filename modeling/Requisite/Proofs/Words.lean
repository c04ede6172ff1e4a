/-
  The words of a program.

  The words of a tree are its keywords, names, literals and operators from left
  to right.  The words of a text are its tokens without punctuation.  A tree does
  not say how a key of an object literal was written, nor whether a property
  whose value is the variable of its own name was written in short.

  * `Expr.words`, `Stmt.words`: the words of a tree;
  * `Spells`: which tokens words may be written with;
  * `Program.spells_words`: the tokens of a text, but for punctuation, are the
    words of the program that it is.
-/
import Requisite.Proofs.Yields

namespace Requisite.Source

open Requisite

/-! ## Words -/

inductive Word where
  /-- a keyword, name, literal or operator -/
  | token (t : Token)
  /-- a key of an object literal -/
  | key (text : String)
  /-- a property whose value is the variable of its own name -/
  | own (name : String)

/-- Whether a token is a bracket or a separator: one of `( ) { } [ ] ; , : .`. -/
def Token.isPunctuation : Token → Bool
  | .symbol s => s ∈ [.leftParen, .rightParen, .leftBrace, .rightBrace, .leftBracket,
      .rightBracket, .semicolon, .comma, .colon, .dot]
  | _ => false

/-- The tokens that words are written with.  A key is compared by its text; a property that is
    its own name is written with or without a key. -/
inductive Spells : List Word → List Token → Prop
  | nil : Spells [] []
  | token {ws : List Word} {ts : List Token} (t : Token) (hrest : Spells ws ts) :
      Spells (.token t :: ws) (t :: ts)
  | key {ws : List Word} {t : Token} {ts : List Token} {text : String}
      (hkey : keyOf? t = some text) (hrest : Spells ws ts) : Spells (.key text :: ws) (t :: ts)
  | short {ws : List Word} {ts : List Token} (x : String) (hrest : Spells ws ts) :
      Spells (.own x :: ws) (.identifier x :: ts)
  | keyed {ws : List Word} {t : Token} {ts : List Token} {x : String}
      (hkey : keyOf? t = some x) (hrest : Spells ws ts) :
      Spells (.own x :: ws) (t :: .identifier x :: ts)

theorem Spells.append {ws ws' : List Word} {ts ts' : List Token} (h : Spells ws ts)
    (h' : Spells ws' ts') : Spells (ws ++ ws') (ts ++ ts') := by
  induction h with
  | nil => exact h'
  | token t _ ih => exact ih.token t
  | key hkey _ ih => exact ih.key hkey
  | short x _ ih => exact ih.short x
  | keyed hkey _ ih => exact ih.keyed hkey

/-! ## Words of trees -/

def Word.symbol (s : Symbol) : Word := .token (.symbol s)
def Word.keyword (k : Keyword) : Word := .token (.keyword k)
def Word.name (x : String) : Word := .token (.identifier x)

mutual

/-- The words of an expression. -/
def Expr.words : Expr → List Word
  | .number x => [.token (.number x)]
  | .string s => [.token (.string s)]
  | .boolean b => [.token (.boolean b)]
  | .null => [.token .null]
  | .name x => [.name x]
  | .array items => itemsWords items
  | .object entries => entriesWords entries
  | .function name params body =>
    .keyword .functionWord :: ((name.toList ++ params).map .name ++ bodyWords body)
  | .unary op e => .token op.token :: e.words
  | .binary op a b => a.words ++ .symbol op.symbol :: b.words
  | .logical op a b => a.words ++ .symbol op.symbol :: b.words
  | .assign op target e => target.words ++ .symbol op.symbol :: e.words
  | .conditional test a b => test.words ++ .symbol .question :: (a.words ++ b.words)
  | .call callee args => callee.words ++ itemsWords args
  | .dot object key => object.words ++ [.name key]
  | .index object key => object.words ++ key.words

def itemsWords : List Expr → List Word
  | [] => []
  | e :: rest => e.words ++ itemsWords rest

def entriesWords : List (String × Expr) → List Word
  | [] => []
  | entry :: rest => entryWords entry ++ entriesWords rest

def entryWords : String × Expr → List Word
  | (key, .name x) => if x = key then [.own key] else [.key key, .name x]
  | (key, e) => .key key :: e.words

/-- The words of a statement. -/
def Stmt.words : Stmt → List Word
  | .declare kind bindings => .keyword kind.keyword :: bindingsWords bindings
  | .function name params body =>
    .keyword .functionWord :: ((name :: params).map .name ++ bodyWords body)
  | .expression e => e.words
  | .block body => bodyWords body
  | .conditional test a none => .keyword .ifWord :: (test.words ++ a.words)
  | .conditional test a (some b) =>
    .keyword .ifWord :: (test.words ++ (a.words ++ .keyword .elseWord :: b.words))
  | .while test body => .keyword .whileWord :: (test.words ++ body.words)
  | .return none => [.keyword .returnWord]
  | .return (some e) => .keyword .returnWord :: e.words
  | .throw e _ => .keyword .throwWord :: e.words
  | .empty => []

def bindingsWords : List (String × Option Expr) → List Word
  | [] => []
  | binding :: rest => bindingWords binding ++ bindingsWords rest

def bindingWords : String × Option Expr → List Word
  | (x, none) => [.name x]
  | (x, some e) => .name x :: .symbol .equal :: e.words

def bodyWords : List Stmt → List Word
  | [] => []
  | s :: rest => s.words ++ bodyWords rest

end

/-- The words of a program. -/
def Program.words (p : Program) : List Word := bodyWords p

theorem Expr.words_apply (op : Infix) (a b : Expr) :
    (op.apply a b).words = a.words ++ .symbol op.symbol :: b.words := by
  cases op <;> rw [Infix.apply, Expr.words] <;> rfl

theorem itemsWords_eq (items : List Expr) : itemsWords items = items.flatMap Expr.words := by
  induction items with
  | nil => rfl
  | cons e items ih => rw [itemsWords, ih, List.flatMap_cons]

theorem entriesWords_eq (entries : List (String × Expr)) :
    entriesWords entries = entries.flatMap entryWords := by
  induction entries with
  | nil => rfl
  | cons entry entries ih => rw [entriesWords, ih, List.flatMap_cons]

theorem bindingsWords_eq (bindings : List (String × Option Expr)) :
    bindingsWords bindings = bindings.flatMap bindingWords := by
  induction bindings with
  | nil => rfl
  | cons binding bindings ih => rw [bindingsWords, ih, List.flatMap_cons]

theorem bodyWords_eq (body : List Stmt) : bodyWords body = body.flatMap Stmt.words := by
  induction body with
  | nil => rfl
  | cons s body ih => rw [bodyWords, ih, List.flatMap_cons]

/-! ## Tokens that tell words -/

/-- The tokens are in order, and but for punctuation they are a way to write the words. -/
structure Tells (ts : List Token) (ws : List Word) : Prop where
  valid : .invalid ∉ ts
  spells : Spells ws (ts.filter fun t => !t.isPunctuation)

namespace Tells

variable {t : Token} {ts us : List Token} {ws ws' : List Word}

theorem nil : Tells [] [] := ⟨nofun, .nil⟩

theorem append (h : Tells ts ws) (h' : Tells us ws') : Tells (ts ++ us) (ws ++ ws') where
  valid := fun hmem => (List.mem_append.1 hmem).elim h.valid h'.valid
  spells := by
    rw [List.filter_append]
    exact h.spells.append h'.spells

/-- Tokens that are no punctuation, one by one. -/
theorem of_spells (hvalid : .invalid ∉ ts) (hts : ∀ t ∈ ts, t.isPunctuation = false)
    (h : Spells ws ts) : Tells ts ws where
  valid := hvalid
  spells := by
    rwa [List.filter_eq_self.2]
    intro t ht
    rw [hts t ht]
    rfl

theorem token (hvalid : t ≠ .invalid) (ht : t.isPunctuation = false) : Tells [t] [.token t] :=
  .of_spells (by simpa using hvalid.symm) (by simpa using ht) (.token t .nil)

theorem punctuation {s : Symbol} (hs : (Token.symbol s).isPunctuation) : Tells [.symbol s] [] where
  valid := by simp
  spells := by
    rw [List.filter_cons_of_neg (by simpa using hs)]
    exact .nil

theorem grouped (h : Tells ts ws) : Tells (grouped ts) ws := by
  simpa [Source.grouped] using (punctuation rfl).append (h.append (punctuation rfl))

theorem inBraces (h : Tells ts ws) : Tells (inBraces ts) ws := by
  simpa [Source.inBraces] using (punctuation rfl).append (h.append (punctuation rfl))

theorem bracketed (h : Tells ts ws) : Tells (bracketed ts) ws := by
  simpa [Source.bracketed] using (punctuation rfl).append (h.append (punctuation rfl))

end Tells

/-! ## Lists -/

section
variable {α : Type} {item : List Token → α → Prop} {words : α → List Word} {ts : List Token}
  {as : List α}

namespace Phrases

theorem Sequence.tells (h : Sequence item ts as) (hitem : ∀ ts a, item ts a → Tells ts (words a)) :
    Tells ts (as.flatMap words) := by
  induction h with
  | nil => exact .nil
  | cons hfirst _ ih =>
    rw [List.flatMap_cons]
    exact (hitem _ _ hfirst).append ih

theorem Separated.tells (h : Separated item ts as)
    (hitem : ∀ ts a, item ts a → Tells ts (words a)) : Tells ts (as.flatMap words) := by
  induction h with
  | last hlast => simpa using hitem _ _ hlast
  | cons hfirst _ ih =>
    rw [List.flatMap_cons]
    exact (hitem _ _ hfirst).append ((Tells.punctuation rfl).append ih)

theorem Terminated.tells (h : Terminated item ts as)
    (hitem : ∀ ts a, item ts a → Tells ts (words a)) : Tells ts (as.flatMap words) := by
  induction h with
  | nil => exact .nil
  | last hlast => simpa using hitem _ _ hlast
  | cons hfirst _ ih =>
    rw [List.flatMap_cons]
    exact (hitem _ _ hfirst).append ((Tells.punctuation rfl).append ih)

theorem Listed.tells (h : Listed item ts as) (hitem : ∀ ts a, item ts a → Tells ts (words a)) :
    Tells ts (as.flatMap words) := by
  cases h with
  | nil => exact .punctuation rfl
  | items hitems => simpa using (hitems.tells hitem).append (.punctuation rfl)

end Phrases

end

/-! ## Operators -/

theorem UnaryOp.eq_token_of_ofToken? {t : Token} {op : UnaryOp} (h : ofToken? t = some op) :
    t = op.token := by
  unfold ofToken? at h
  split at h
  all_goals cases h
  all_goals rfl

theorem Infix.eq_symbol_of_ofSymbol? {s : Symbol} {op : Infix} (h : ofSymbol? s = some op) :
    s = op.symbol := by
  unfold ofSymbol? at h
  split at h
  all_goals cases h
  all_goals rfl

theorem Infix.eq_symbol_of_ofToken? {level : Nat} {t : Token} {op : Infix}
    (h : ofToken? level t = some op) : t = .symbol op.symbol := by
  cases t with
  | symbol s =>
    have hs : ofSymbol? s = some op := (Option.filter_eq_some_iff.1 h).1
    rw [eq_symbol_of_ofSymbol? hs]
  | _ => exact nomatch h

theorem AssignOp.eq_symbol_of_ofToken? {t : Token} {op : AssignOp} (h : ofToken? t = some op) :
    t = .symbol op.symbol := by
  unfold ofToken? at h
  split at h
  all_goals cases h
  all_goals rfl

theorem BindingKind.eq_keyword_of_ofToken? {t : Token} {kind : BindingKind}
    (h : ofToken? t = some kind) : t = .keyword kind.keyword := by
  unfold ofToken? at h
  split at h
  all_goals cases h
  all_goals rfl

namespace Tells

variable {ts us : List Token} {ws ws' : List Word}

theorem unary {t : Token} {op : UnaryOp} (h : UnaryOp.ofToken? t = some op) :
    Tells [t] [.token op.token] := by
  rw [UnaryOp.eq_token_of_ofToken? h]
  cases op <;> exact .token nofun rfl

theorem infixed {level : Nat} {t : Token} {op : Infix} (h : Infix.ofToken? level t = some op) :
    Tells [t] [.symbol op.symbol] := by
  rw [Infix.eq_symbol_of_ofToken? h]
  rcases op with op | op <;> cases op <;> exact .token nofun rfl

theorem assign {t : Token} {op : AssignOp} (h : AssignOp.ofToken? t = some op) :
    Tells [t] [.symbol op.symbol] := by
  rw [AssignOp.eq_symbol_of_ofToken? h]
  cases op <;> exact .token nofun rfl

theorem keyword (k : Keyword) : Tells [.keyword k] [.keyword k] := .token nofun rfl

theorem declare {t : Token} {kind : BindingKind} (h : BindingKind.ofToken? t = some kind) :
    Tells [t] [.keyword kind.keyword] := by
  rw [BindingKind.eq_keyword_of_ofToken? h]
  exact keyword _

theorem name (x : String) : Tells [.identifier x] [.name x] := .token nofun rfl

/-- The end of a statement tells nothing. -/
theorem ended (h : Tells ts ws) (hus : Phrases.Ending us) : Tells (ts ++ us) ws := by
  have hend : Tells us [] := by
    cases hus with
    | semicolon => exact .punctuation rfl
    | bare => exact .nil
  simpa using h.append hend

/-- A key and a colon before what tells the words of a value. -/
theorem keyed {t : Token} {key : String} (hkey : keyOf? t = some key)
    (h : Tells ts ws) (hspells : ∀ us, Spells ws us → Spells ws' (t :: us)) :
    Tells (t :: .symbol .colon :: ts) ws' where
  valid := by
    have ht : t ≠ .invalid := by
      rintro rfl
      exact nomatch hkey
    simpa [ht.symm] using h.valid
  spells := by
    have ht : t.isPunctuation = false := by
      cases t with
      | symbol s => exact nomatch hkey
      | _ => rfl
    rw [List.filter_cons_of_pos (by simp [ht]), List.filter_cons_of_neg (by decide)]
    exact hspells _ h.spells

end Tells

/-! ## Productions -/

/-- The phrases tell the words of their trees. -/
structure Phrases.Worded (g : Phrases) : Prop where
  statement : ∀ ts s, g.statement ts s → Tells ts s.words
  assignment : ∀ ts e, g.assignment ts e → Tells ts e.words
  unary : ∀ ts e, g.unary ts e → Tells ts e.words

namespace Phrases.Worded

variable {g : Phrases} {ts : List Token} {e : Expr}

theorem functionRest (h : g.Worded) {params : List String} {body : List Stmt}
    (hts : g.FunctionRest ts (params, body)) : Tells ts (params.map .name ++ bodyWords body) := by
  obtain ⟨hparams, hbody⟩ := hts
  have hnames := hparams.tells fun _ _ ⟨x⟩ => Tells.name x
  rw [bodyWords_eq, List.map_eq_flatMap]
  exact (Tells.punctuation rfl).append (hnames.append (hbody.tells h.statement).inBraces)

theorem property (h : g.Worded) {entry : String × Expr} (hts : g.Property ts entry) :
    Tells ts (entryWords entry) := by
  cases hts with
  | short x =>
    rw [entryWords, if_pos rfl]
    exact .of_spells (by simp) (by simp [Token.isPunctuation]) (.short x .nil)
  | @keyed t key ts e hkey hvalue =>
    have he := h.assignment ts e hvalue
    cases e with
    | name x =>
      rw [entryWords]
      split
      · next hx =>
        subst hx
        refine he.keyed hkey fun us hus => ?_
        obtain - | ⟨-, ⟨⟩⟩ := hus
        exact .keyed hkey .nil
      · exact he.keyed hkey fun us hus => .key hkey hus
    | _ => exact he.keyed hkey fun us hus => .key hkey hus

theorem primary (h : g.Worded) (hts : g.Primary ts e) : Tells ts e.words := by
  cases hts with
  | number => exact .token nofun rfl
  | string => exact .token nofun rfl
  | boolean => exact .token nofun rfl
  | null => exact .token nofun rfl
  | name x => exact .name x
  | function name hrest =>
    have hname : Tells (printName name) (name.toList.map .name) := by
      cases name with
      | none => exact .nil
      | some x => exact .name x
    rw [Expr.words, List.map_append, List.append_assoc]
    exact (Tells.keyword _).append (hname.append (h.functionRest hrest))
  | group he => exact (h.assignment _ _ he).grouped
  | array hitems =>
    rw [Expr.words, itemsWords_eq]
    exact (hitems.tells h.assignment).bracketed
  | object hentries =>
    rw [Expr.words, entriesWords_eq]
    exact (hentries.tells fun _ _ => h.property).inBraces

theorem suffixed (h : g.Worded) (hts : g.Suffixed ts e) : Tells ts e.words := by
  induction hts with
  | primary he => exact h.primary he
  | call _ hargs ih =>
    rw [Expr.words, itemsWords_eq]
    exact ih.append ((Tells.punctuation rfl).append (hargs.tells h.assignment))
  | dot key _ ih =>
    rw [Expr.words]
    exact ih.append ((Tells.punctuation rfl).append (.name key))
  | index _ hkey ih =>
    rw [Expr.words]
    exact ih.append (h.assignment _ _ hkey).bracketed

theorem next_unary (h : g.Worded) (hts : g.Unary ts e) : Tells ts e.words := by
  cases hts with
  | operator hop he =>
    rw [Expr.words]
    exact (Tells.unary hop).append (h.unary _ _ he)
  | suffixed he => exact h.suffixed he

theorem operators (h : g.Worded) {level : Nat} (hts : g.Operators level ts e) :
    Tells ts e.words := by
  induction hts with
  | unary he => exact h.next_unary he
  | tighter _ ih => exact ih
  | operator _ hop _ ihleft ihright =>
    rw [Expr.words_apply]
    exact ihleft.append ((Tells.infixed hop).append ihright)

theorem conditional (h : g.Worded) (hts : g.Conditional ts e) : Tells ts e.words := by
  cases hts with
  | test he => exact h.operators he
  | branches htest ha hb =>
    rw [Expr.words]
    have hquestion : Tells [.symbol .question] [.symbol .question] := .token nofun rfl
    refine (h.operators htest).append (hquestion.append ((h.assignment _ _ ha).append ?_))
    exact (Tells.punctuation rfl).append (h.assignment _ _ hb)

theorem next_assignment (h : g.Worded) (hts : g.Assignment ts e) : Tells ts e.words := by
  cases hts with
  | conditional he => exact h.conditional he
  | assign htarget _ hop hvalue =>
    rw [Expr.words]
    exact (h.conditional htarget).append ((Tells.assign hop).append (h.assignment _ _ hvalue))

theorem binding (h : g.Worded) {kind : BindingKind} {entry : String × Option Expr}
    (hts : g.Binding kind ts entry) : Tells ts (bindingWords entry) := by
  cases hts with
  | bare x => exact .name x
  | valued x he =>
    have hequal : Tells [.symbol .equal] [.symbol .equal] := .token nofun rfl
    exact (Tells.name x).append (hequal.append (h.assignment _ _ he))

theorem next_statement (h : g.Worded) {s : Stmt} (hts : g.Statement ts s) : Tells ts s.words := by
  cases hts with
  | declare hkind hbindings hend =>
    rw [Stmt.words, bindingsWords_eq]
    exact (Tells.declare hkind).append ((hbindings.tells fun _ _ => h.binding).ended hend)
  | function name hrest =>
    exact (Tells.keyword _).append ((Tells.name name).append (h.functionRest hrest))
  | conditional htest ha =>
    exact (Tells.keyword _).append
      ((h.assignment _ _ htest).grouped.append (h.statement _ _ ha))
  | alternative htest ha hb =>
    exact (Tells.keyword _).append ((h.assignment _ _ htest).grouped.append
      ((h.statement _ _ ha).append ((Tells.keyword _).append (h.statement _ _ hb))))
  | «while» htest hbody =>
    exact (Tells.keyword _).append
      ((h.assignment _ _ htest).grouped.append (h.statement _ _ hbody))
  | returnNone hend => exact (Tells.keyword _).ended hend
  | returnSome he hend => exact (Tells.keyword _).append ((h.assignment _ _ he).ended hend)
  | throw line he hend => exact (Tells.keyword _).append ((h.assignment _ _ he).ended hend)
  | block hbody =>
    rw [Stmt.words, bodyWords_eq]
    exact (hbody.tells h.statement).inBraces
  | empty => exact .punctuation rfl
  | expression he hend => exact (h.assignment _ _ he).ended hend

/-- **One level further out**: the phrases with one more level tell the words of their trees. -/
theorem next (h : g.Worded) : Phrases.Worded ⟨g.Statement, g.Assignment, g.Unary⟩ where
  statement _ _ := h.next_statement
  assignment _ _ := h.next_assignment
  unary _ _ := h.next_unary

end Phrases.Worded

theorem phrases_worded (n : Nat) : (phrases n).Worded := by
  induction n with
  | zero => exact ⟨fun _ _ h => h.elim, fun _ _ h => h.elim, fun _ _ h => h.elim⟩
  | succ n ih => exact ih.next

/-! ## Programs -/

/-- The tokens of a program's text tell its words. -/
theorem Program.tells {s : String} {p : Program} (h : ofText? s = .ok p) :
    Tells (Token.ofText s) p.words := by
  have hwords := (ofText?_sound h).1.tells (phrases_worded maxDepth).statement
  rwa [← bodyWords_eq] at hwords

/-- **The parser ignores, invents and reorders nothing.**  No token of a program's text is
    invalid, the tokens that are no punctuation are the words of the program in order, and nothing
    but `eof` is left when the program has been read. -/
theorem Program.spells_words {s : String} {p : Program} (h : ofText? s = .ok p) :
    .invalid ∉ Token.ofText s ∧
      Spells p.words ((Token.ofText s).filter fun t => !t.isPunctuation) ∧
      ∃ l, (program (nested (Lexeme.ofText s).length maxDepth).statement
        (Lexeme.ofText s).length).run (.ofLexemes (Lexeme.ofText s)) = .ok (p, ⟨l, []⟩) ∧
        l.token = .eof := by
  have hwords := tells h
  exact ⟨hwords.valid, hwords.spells, (ofText?_sound h).2⟩

/-- A name in short, a key in quotes and a comma at the end. -/
theorem Program.spells_words_object :
    ofText? "(\x7ba, 'b': c,\x7d)" =
        .ok [.expression (.object [("a", .name "a"), ("b", .name "c")])] ∧
      Spells [.own "a", .key "b", .name "c"] [.identifier "a", .string "b", .identifier "c"] := by
  have hlexemes : Lexeme.ofText "(\x7ba, 'b': c,\x7d)" =
      [⟨.symbol .leftParen, ⟨0, 1⟩, ⟨1, 1⟩, false⟩, ⟨.symbol .leftBrace, ⟨1, 1⟩, ⟨2, 1⟩, false⟩,
        ⟨.identifier "a", ⟨2, 1⟩, ⟨3, 1⟩, false⟩, ⟨.symbol .comma, ⟨3, 1⟩, ⟨4, 1⟩, false⟩,
        ⟨.string "b", ⟨5, 1⟩, ⟨8, 1⟩, false⟩, ⟨.symbol .colon, ⟨8, 1⟩, ⟨9, 1⟩, false⟩,
        ⟨.identifier "c", ⟨10, 1⟩, ⟨11, 1⟩, false⟩, ⟨.symbol .comma, ⟨11, 1⟩, ⟨12, 1⟩, false⟩,
        ⟨.symbol .rightBrace, ⟨12, 1⟩, ⟨13, 1⟩, false⟩, ⟨.symbol .rightParen, ⟨13, 1⟩, ⟨14, 1⟩,
        false⟩, ⟨.eof, ⟨14, 1⟩, ⟨14, 1⟩, false⟩] := by
    decide +kernel
  have h : ofText? "(\x7ba, 'b': c,\x7d)" =
      .ok [.expression (.object [("a", .name "a"), ("b", .name "c")])] :=
    ofText?_of_lexemes hlexemes rfl
  have hspells := (spells_words h).2.1
  rw [Token.ofText, hlexemes] at hspells
  exact ⟨h, hspells⟩

end Requisite.Source
