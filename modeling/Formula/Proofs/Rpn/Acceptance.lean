import Formula.Proofs.Rpn.Written
import Formula.Proofs.Token.Products
import Formula.Rpn

namespace Formula

/-! That formulas which are written as phrases are accepted.

Ordering goes by the tokens alone, whatever carries them. And in a written phrase an operand is
always followed by an operator or by punctuation, so no product is inserted.
-/

namespace Rpn

section

variable {σ τ : Type} [Lexical σ] [Lexical τ] {convert : σ → τ}

theorem isReleasedBy_convert (keeps : ∀ item, Lexical.token (convert item) = Lexical.token item)
    (entering : Operator) : isReleasedBy entering ∘ convert = isReleasedBy entering := by
  funext item
  simp only [Function.comp_apply, isReleasedBy, keeps]

theorem isOpening_convert (keeps : ∀ item, Lexical.token (convert item) = Lexical.token item)
    (item : σ) : isOpening (convert item) = isOpening item := by
  rw [isOpening, keeps, isOpening]

theorem inside_map (keeps : ∀ item, Lexical.token (convert item) = Lexical.token item)
    (pending : List σ) : inside (pending.map convert) = (inside pending).map convert := by
  simp only [inside, List.takeWhile_map, Function.comp_def, isOpening_convert keeps]

theorem fromOpening_map (keeps : ∀ item, Lexical.token (convert item) = Lexical.token item)
    (pending : List σ) : fromOpening (pending.map convert) = (fromOpening pending).map convert := by
  simp only [fromOpening, List.dropWhile_map, Function.comp_def, isOpening_convert keeps]

theorem called_map (keeps : ∀ item, Lexical.token (convert item) = Lexical.token item)
    (pending : List σ) : called (pending.map convert) = (called pending).map convert := by
  simp only [called, ← List.map_take, List.filter_map, Function.comp_def, keeps]

omit [Lexical σ] [Lexical τ] in
theorem map_map_append {given : List σ} {outcome : Except SyntaxError (List σ)} :
    (outcome.map (given ++ ·)).map (·.map convert) =
      (outcome.map (·.map convert)).map (given.map convert ++ ·) := by
  cases outcome <;> simp [Except.map]

/-- Items that carry the same tokens are ordered in the same way. -/
theorem order_map (keeps : ∀ item, Lexical.token (convert item) = Lexical.token item)
    (pending items : List σ) :
    order (pending.map convert) (items.map convert) = (order pending items).map (·.map convert) := by
  induction items generalizing pending with
  | nil =>
      simp only [List.map_nil, order, List.any_map, Function.comp_def, isOpening_convert keeps]
      split <;> rfl
  | cons item rest ih =>
      simp only [List.map_cons, order, keeps]
      split
      · rw [ih]
        exact (@map_map_append σ τ convert [item] _).symm
      · rw [ih]
        exact (@map_map_append σ τ convert [item] _).symm
      · exact ih (item :: pending)
      · exact ih (item :: pending)
      case h_5 entering _ =>
        rw [List.dropWhile_map, List.takeWhile_map, isReleasedBy_convert keeps, ← List.map_cons, ih]
        exact map_map_append.symm
      · rw [fromOpening_map keeps, inside_map keeps, ← List.map_drop, called_map keeps,
          List.isEmpty_map]
        split
        · rfl
        · rw [ih]
          exact map_map_append.symm
      · rw [fromOpening_map keeps, inside_map keeps]
        cases fromOpening pending with
        | nil => rfl
        | cons opening around =>
            simp only [List.map_cons, called_map keeps, List.length_map, ← List.map_drop, ih,
              ← List.map_append]
            exact map_map_append.symm

end

/-- The items of a formula, with products between neighbours that multiply, if neighbours do. -/
def withProducts {τ : Type} [Lexical τ] (juxtaposition : Bool) (items : List τ) : List τ :=
  if juxtaposition then insertProducts items else items

theorem withProducts_map_token (juxtaposition : Bool) (items : List Located) :
    (withProducts juxtaposition items).map Located.token =
      withProducts juxtaposition (items.map Located.token) := by
  cases juxtaposition with
  | false => rfl
  | true => exact insertProducts_map_token items

theorem placed_withProducts {tokens : List Token} (placed : Placed none tokens)
    (juxtaposition : Bool) : Placed none (withProducts juxtaposition tokens) := by
  cases juxtaposition with
  | false => exact placed
  | true => exact placed.insertProducts

/-- The RPN of a formula goes by the tokens alone. -/
theorem ofText_eq_ofTokens {lexicon : Lexicon} {text : String} {located : List Located}
    (lexed : lexicon.tokens text = .ok located) (juxtaposition : Bool) :
    ofText lexicon juxtaposition text = ofTokens juxtaposition (located.map Located.token) := by
  have arranged := @order_map Located Token _ _ Located.token (fun _ => rfl) []
    (withProducts juxtaposition located)
  rw [withProducts_map_token, List.map_nil] at arranged
  simp only [withProducts] at arranged
  simp only [ofText, Rpn.located, lexed, ofTokens, arranged, bind, Except.bind, pure, Except.pure]
  cases order [] (if juxtaposition then insertProducts located else located) with
  | error reason => rfl
  | ok ordered =>
      have tokens : (ordered.map Located.token).map Lexical.token = ordered.map Lexical.token :=
        List.map_id _
      simp only [Except.map, tokens]
      cases balance (ordered.map Lexical.token) <;> rfl

/-- Items are accepted if they can be ordered and the outcome is balanced. -/
theorem ofTokens_items_eq_ok_iff {τ : Type} [Lexical τ] {juxtaposition : Bool}
    {items ordered : List τ} :
    ofTokens juxtaposition items = .ok ordered ↔
      order [] (withProducts juxtaposition items) = .ok ordered ∧
        balance (ordered.map Lexical.token) = .ok () := by
  change ((order [] (withProducts juxtaposition items)).bind fun given =>
    (balance (given.map Lexical.token)).bind fun _ => .ok given) = .ok ordered ↔ _
  cases order [] (withProducts juxtaposition items) with
  | error reason => simp [Except.bind]
  | ok given =>
      cases balanced : balance (given.map Lexical.token) with
      | error reason =>
          simp only [Except.bind, balanced, reduceCtorEq, Except.ok.injEq, false_iff, not_and]
          rintro rfl
          simp [balanced]
      | ok =>
          simp only [Except.bind, balanced, Except.ok.injEq, iff_self_and]
          rintro rfl
          exact balanced

theorem ofTokens_eq_ok_iff {juxtaposition : Bool} {tokens ordered : List Token} :
    ofTokens juxtaposition tokens = .ok ordered ↔
      order [] (withProducts juxtaposition tokens) = .ok ordered ∧ balance ordered = .ok () := by
  rw [ofTokens_items_eq_ok_iff, map_lexical_token]

theorem located_eq_ok_iff {lexicon : Lexicon} {text : String} {tokens ordered : List Located}
    (lexed : lexicon.tokens text = .ok tokens) {juxtaposition : Bool} :
    Rpn.located lexicon juxtaposition text = .ok ordered ↔
      order [] (withProducts juxtaposition tokens) = .ok ordered ∧
        balance (ordered.map Located.token) = .ok () := by
  simp only [Rpn.located, lexed, bind, Except.bind]
  exact ofTokens_items_eq_ok_iff

end Rpn

namespace Phrase

open Rpn

/-- No product is inserted between the tokens. -/
def IsApart (tokens : List Token) : Prop :=
  tokens.IsChain fun left right => left.multipliesWith right = false

theorem IsApart.cons {token : Token} {rest : List Token} (apart : IsApart rest)
    (here : ∀ next ∈ rest.head?, token.multipliesWith next = false) : IsApart (token :: rest) :=
  List.isChain_cons.mpr ⟨here, apart⟩

theorem IsApart.cons_of_opens {token : Token} {rest : List Token} (apart : IsApart rest)
    (opens : token.endsOperand = false) : IsApart (token :: rest) :=
  apart.cons fun next _ => by rw [Token.multipliesWith_eq, opens, Bool.false_and, Bool.false_and]

/-- Tokens that can follow an operand: none of them begins another one. -/
def Follows (tokens : List Token) : Prop := ∀ next ∈ tokens.head?, next.beginsOperand = false

theorem Follows.cons {token : Token} (ends : token.beginsOperand = false) (rest : List Token) :
    Follows (token :: rest) := by
  intro next isNext
  obtain rfl : token = next := by simpa using isNext
  exact ends

theorem IsApart.leaf {token : Token} {rest : List Token} (apart : IsApart rest)
    (follows : Follows rest) : IsApart (token :: rest) :=
  apart.cons fun next isNext => by
    rw [Token.multipliesWith_eq, follows next isNext, Bool.and_false, Bool.false_and]

theorem isApart_commaSeparated {texts : List (List Token)} {rest : List Token}
    (each : ∀ text ∈ texts, ∀ after, IsApart after → Follows after → IsApart (text ++ after))
    (apart : IsApart rest) (follows : Follows rest) : IsApart (commaSeparated texts ++ rest) := by
  induction texts with
  | nil => exact apart
  | cons first others ih =>
      cases others with
      | nil => exact each first (by simp) rest apart follows
      | cons next others =>
          have later := ih fun text member => each text (List.mem_cons_of_mem _ member)
          rw [commaSeparated, List.append_assoc, List.cons_append]
          exact each first (by simp) _ (later.cons_of_opens rfl) (.cons rfl _)

/-- In a written phrase, and between it and what can follow it, no product is inserted. -/
theorem Written.isApart {phrase : Phrase} (written : phrase.Written) {rest : List Token}
    (apart : IsApart rest) (follows : Follows rest) : IsApart (phrase.text ++ rest) := by
  have noSuffix : ∀ operator ∈ Operator.builtins, operator.isSuffix = false := by decide
  induction written generalizing rest with
  | number value => exact apart.leaf follows
  | var name => exact apart.leaf follows
  | @call function arguments count each ih =>
      have closed : IsApart (.closeParen :: rest) := apart.leaf follows
      have inner := @isApart_commaSeparated (arguments.map (·.text)) (.closeParen :: rest)
        (by simpa using fun argument member after => @ih argument member after) closed (.cons rfl _)
      have opened : IsApart (.openParen :: (commaSeparated (arguments.map (·.text)) ++
          .closeParen :: rest)) := inner.cons_of_opens rfl
      have whole : IsApart (.function function :: .openParen ::
          (commaSeparated (arguments.map (·.text)) ++ .closeParen :: rest)) := opened.cons_of_opens rfl
      simpa using whole
  | @group inner written ih =>
      have closed : IsApart (.closeParen :: rest) := apart.leaf follows
      have opened : IsApart (.openParen :: (inner.text ++ .closeParen :: rest)) :=
        (ih closed (.cons rfl _)).cons_of_opens rfl
      simpa using opened
  | signed builtin unary written stands ih =>
      exact IsApart.cons_of_opens (ih apart follows) (noSuffix _ builtin)
  | @binary operator left right builtin takesTwo first second before after firstIH secondIH =>
      have operand : IsApart (.operator operator :: (right.text ++ rest)) :=
        (secondIH apart follows).cons_of_opens (noSuffix operator builtin)
      have whole := firstIH operand (.cons rfl _)
      simpa using whole

theorem Written.insertProducts_eq {phrase : Phrase} (written : phrase.Written) :
    insertProducts phrase.text = phrase.text := by
  have apart := @Written.isApart phrase written [] .nil fun _ isNext => by contradiction
  rw [List.append_nil] at apart
  rw [IsApart, ← map_lexical_token phrase.text] at apart
  exact insertProducts_eq_self apart

theorem Written.writable {phrase : Phrase} (written : phrase.Written) : phrase.tree.Writable := by
  induction written with
  | number value => exact .number value
  | var name => exact .var name
  | call count each ih => exact .call (by simpa using count) (by simpa using ih)
  | group written ih => exact ih
  | signed builtin unary written stands ih => exact .signed builtin unary ih
  | binary builtin takesTwo first second before after firstIH secondIH =>
      exact .binary builtin takesTwo firstIH secondIH

/-- A text that is read as a written phrase has the postorder of its tree as its RPN, whether
neighbours multiply or not. -/
theorem Written.ofText_eq_ok {phrase : Phrase} (written : phrase.Written) {lexicon : Lexicon}
    {text : String} {located : List Located} (lexed : lexicon.tokens text = .ok located)
    (spelled : located.map Located.token = phrase.text) (juxtaposition : Bool) :
    ofText lexicon juxtaposition text = .ok phrase.tree.postorder := by
  have items : withProducts juxtaposition phrase.text = phrase.text := by
    cases juxtaposition with
    | false => rfl
    | true => exact written.insertProducts_eq
  have balanced := balance_postorder written.writable.saturated
  rw [map_lexical_token] at balanced
  rw [ofText_eq_ofTokens lexed, spelled, ofTokens_eq_ok_iff, items]
  exact ⟨written.order_eq_ok, balanced⟩

end Phrase

end Formula
