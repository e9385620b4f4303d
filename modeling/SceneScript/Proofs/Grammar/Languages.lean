import Mathlib.Computability.Language
import Mathlib.Order.CompletePartialOrder
import SceneScript.Grammar

/-!
# The languages of the grammar

Each syntactic category as a set of token sequences, without the trees, and the rules of the grammar
as inclusions between them.  A repetition is a Kleene star, so the rules for lists and for chains of
operators follow from the laws of Kleene algebras.
-/

namespace SceneScript.Grammar

open Computability

/-! ## Categories -/

/-- One given token. -/
def token (t : Token) : Language Token := {[t]}

/-- One of some tokens. -/
def oneTokenOf {ι : Type} (choices : List ι) (toToken : ι → Token) : Language Token :=
  {ts | ∃ choice ∈ choices, ts = [toToken choice]}

/-- The numbers. -/
def numbers : Language Token := {ts | ∃ x, ts = [.number x]}

/-- The texts in quotes. -/
def texts : Language Token := {ts | ∃ value, ts = [.text value]}

/-- The words that can be names. -/
def names : Language Token := {ts | ∃ t name, ts = [t] ∧ IsName t name}

/-- The values. -/
def values : Language Token := {ts | ∃ e, IsValue ts e}

/-- The values with as many minus signs before them as one likes. -/
def negations : Language Token := {ts | ∃ e, IsNegation ts e}

/-- The products. -/
def products : Language Token := {ts | ∃ e, IsProduct ts e}

/-- The sums. -/
def sums : Language Token := {ts | ∃ e, IsSum ts e}

/-- The arguments of a call, which may have no commas between them. -/
def argumentLists : Language Token := {ts | ∃ es, IsArguments ts es}

/-- The conditions, with or without a comparison. -/
def conditions : Language Token := {ts | ∃ e, IsCondition ts e}

/-- The parameters of a function. -/
def parameterLists : Language Token := {ts | ∃ names, IsParameters ts names}

/-- The scenes. -/
def sentences : Language Token := {ts | IsSentence ts}

/-- The statements, which are also the sentences of one statement. -/
def statements : Language Token := {ts | ∃ st, IsStatement ts st}

/-- Perhaps a comma. -/
def separators : Language Token := 1 + token comma

/-- Three expressions with commas between them and a token behind them. -/
def triples (close : Token) : Language Token :=
  sums * (token comma * (sums * (token comma * (sums * token close))))

/-- Arguments in parentheses. -/
def calls : Language Token := token leftParen * (argumentLists * token rightParen)

/-- Tokens of a language are tokens of a larger one. -/
theorem mem_of_le {L M : Language Token} {ts : List Token} (h : L ≤ M) (hts : ts ∈ L) : ts ∈ M :=
  h hts

theorem isSeparator_of_mem {ts : List Token} (h : ts ∈ separators) : IsSeparator ts := by
  rcases h with rfl | rfl
  · exact .none
  · exact .comma

/-- What a phrase may begin with. -/
def prefixes (L : Language Token) : Language Token := {ts | ∃ us, ts ++ us ∈ L}

/-- The beginning of a beginning is a beginning. -/
theorem mem_prefixes_of_append {L : Language Token} {ts us : List Token}
    (h : ts ++ us ∈ prefixes L) : ts ∈ prefixes L := by
  obtain ⟨vs, hvs⟩ := h
  exact ⟨us ++ vs, by rwa [← List.append_assoc]⟩

/-- What is in a language begins something in it. -/
theorem mem_prefixes_of_mem {L : Language Token} {ts : List Token} (h : ts ∈ L) :
    ts ∈ prefixes L := ⟨[], by rwa [List.append_nil]⟩

/-- There are phrases of this kind. -/
class Occurs (L : Language Token) : Prop where
  exists_mem : ∃ ts, ts ∈ L

/-! ## Values -/

/-- Numbers are values. -/
theorem numbers_le : numbers ≤ values := by
  rintro _ ⟨x, rfl⟩
  exact ⟨_, .number x⟩

theorem texts_le : texts ≤ values := by
  rintro _ ⟨value, rfl⟩
  exact ⟨_, .text value⟩

theorem colors_le : oneTokenOf Color.all (fun c => word c.text) ≤ values := by
  rintro _ ⟨c, _, rfl⟩
  exact ⟨_, .color c⟩

/-- Names are values. -/
theorem names_le : names ≤ values := by
  rintro _ ⟨t, name, rfl, h⟩
  exact ⟨_, .identifier h⟩

theorem rgb_le : token (word "rgb") * (token leftParen * triples rightParen) ≤ values := by
  rintro _ ⟨_, rfl, _, ⟨_, rfl, _, ⟨rs, ⟨r, hr⟩, _, ⟨_, rfl, _, ⟨gs, ⟨g, hg⟩, _,
    ⟨_, rfl, _, ⟨bs, ⟨b, hb⟩, _, rfl, rfl⟩, rfl⟩, rfl⟩, rfl⟩, rfl⟩, rfl⟩, rfl⟩
  exact ⟨_, .rgb hr hg hb⟩

/-- Three sums between angle brackets are a value. -/
theorem vector_le : token leftAngle * triples rightAngle ≤ values := by
  rintro _ ⟨_, rfl, _, ⟨xs, ⟨x, hx⟩, _, ⟨_, rfl, _, ⟨ys, ⟨y, hy⟩, _,
    ⟨_, rfl, _, ⟨zs, ⟨z, hz⟩, _, rfl, rfl⟩, rfl⟩, rfl⟩, rfl⟩, rfl⟩, rfl⟩
  exact ⟨_, .vector hx hy hz⟩

theorem texture_le :
    token (word "texture") * (token leftParen * (sums * token rightParen)) ≤ values := by
  rintro _ ⟨_, rfl, _, ⟨_, rfl, _, ⟨ts, ⟨e, h⟩, _, rfl, rfl⟩, rfl⟩, rfl⟩
  exact ⟨_, .texture h⟩

/-- A sum in parentheses is a value. -/
theorem paren_le : token leftParen * (sums * token rightParen) ≤ values := by
  rintro _ ⟨_, rfl, _, ⟨ts, ⟨e, h⟩, _, rfl, rfl⟩, rfl⟩
  exact ⟨_, .paren h⟩

/-- A solid with arguments is a value. -/
theorem solid_le : oneTokenOf Solid.all (fun kind => word kind.text) * calls ≤ values := by
  rintro _ ⟨_, ⟨kind, _, rfl⟩, _, ⟨_, rfl, _, ⟨ts, ⟨es, h⟩, _, rfl, rfl⟩, rfl⟩, rfl⟩
  exact ⟨_, .solid kind h⟩

/-! ## Operators -/

/-- Values need no minus sign. -/
theorem values_le : values ≤ negations := by
  rintro _ ⟨e, h⟩
  exact ⟨_, .value h⟩

theorem minus_le : token minus * values ≤ negations := by
  rintro _ ⟨_, rfl, _, ⟨e, h⟩, rfl⟩
  exact ⟨_, .minus h⟩

/-- Operations on an operand before them. -/
def operations (operators : List Operator) (operands : Language Token) : Language Token :=
  oneTokenOf operators operatorToken * operands

/-- A value with any number of operations behind it is a product. -/
theorem products_le :
    negations * (operations [.multiply, .divide, .modulo] negations)∗ ≤ products := by
  have hfactor : negations ≤ products := by
    rintro _ ⟨e, h⟩
    exact ⟨_, .factor h⟩
  have htimes : products * operations [.multiply, .divide, .modulo] negations ≤ products := by
    rintro _ ⟨ls, ⟨left, hl⟩, _, ⟨_, ⟨op, hop, rfl⟩, rs, ⟨right, hr⟩, rfl⟩, rfl⟩
    have hprec : op.precedence = 3 := by
      revert hop
      cases op <;> decide
    exact ⟨_, .times op hprec hl hr⟩
  calc negations * (operations [.multiply, .divide, .modulo] negations)∗
      ≤ products * (operations [.multiply, .divide, .modulo] negations)∗ :=
        mul_le_mul_left hfactor _
    _ ≤ products := mul_kstar_le_self htimes

/-- A product with any number of operations behind it is a sum. -/
theorem sums_le : products * (operations [.add, .subtract] products)∗ ≤ sums := by
  have hterm : products ≤ sums := by
    rintro _ ⟨e, h⟩
    exact ⟨_, .term h⟩
  have hplus : sums * operations [.add, .subtract] products ≤ sums := by
    rintro _ ⟨ls, ⟨left, hl⟩, _, ⟨_, ⟨op, hop, rfl⟩, rs, ⟨right, hr⟩, rfl⟩, rfl⟩
    have hprec : op.precedence = 2 := by
      revert hop
      cases op <;> decide
    exact ⟨_, .plus op hprec hl hr⟩
  calc products * (operations [.add, .subtract] products)∗
      ≤ sums * (operations [.add, .subtract] products)∗ := mul_le_mul_left hterm _
    _ ≤ sums := mul_kstar_le_self hplus

theorem conditions_plain_le : sums ≤ conditions := by
  rintro _ ⟨e, h⟩
  exact ⟨_, .plain h⟩

/-- A condition may compare two sums. -/
theorem conditions_compared_le :
    sums * operations [.lessThan, .greaterThan] sums ≤ conditions := by
  rintro _ ⟨ls, ⟨left, hl⟩, _, ⟨_, ⟨op, hop, rfl⟩, rs, ⟨right, hr⟩, rfl⟩, rfl⟩
  have hprec : op.precedence = 1 := by
    revert hop
    cases op <;> decide
  exact ⟨_, .compared op hprec hl hr⟩

/-! ## Lists -/

/-- Sums with separators behind them are arguments. -/
theorem argumentLists_le : (sums * separators)∗ ≤ argumentLists := by
  refine kstar_le_of_mul_le_right ?_ ?_
  · rintro _ rfl
    exact ⟨[], .nil⟩
  · rintro _ ⟨_, ⟨ts, ⟨e, h⟩, sep, hsep, rfl⟩, us, ⟨es, hes⟩, rfl⟩
    refine ⟨e :: es, ?_⟩
    simpa using IsArguments.cons h (isSeparator_of_mem hsep) hes

/-- Names with separators behind them are parameters. -/
theorem parameterLists_le : (names * separators)∗ ≤ parameterLists := by
  refine kstar_le_of_mul_le_right ?_ ?_
  · rintro _ rfl
    exact ⟨[], .nil⟩
  · rintro _ ⟨_, ⟨_, ⟨t, name, rfl, h⟩, sep, hsep, rfl⟩, us, ⟨more, hmore⟩, rfl⟩
    exact ⟨_, .cons h (isSeparator_of_mem hsep) hmore⟩

/-- Any number of statements make a body. -/
theorem isBody_of_mem {ts : List Token} (h : ts ∈ statements∗) : ∃ ss, IsBody ts ss := by
  obtain ⟨parts, rfl, hparts⟩ := h
  induction parts with
  | nil => exact ⟨[], .nil⟩
  | cons part parts ih =>
    obtain ⟨st, hst⟩ := hparts part (List.mem_cons_self ..)
    obtain ⟨ss, hss⟩ := ih fun other hmem => hparts other (List.mem_cons_of_mem _ hmem)
    exact ⟨st :: ss, .cons hst hss⟩

/-- A body is any number of statements. -/
theorem mem_of_isBody {ts : List Token} {ss : List Statement} (h : IsBody ts ss) :
    ts ∈ statements∗ := by
  induction ss generalizing ts with
  | nil =>
    cases h
    exact Language.nil_mem_kstar _
  | cons st ss ih =>
    cases h with
    | cons hst hss =>
      have hmul := Language.append_mem_mul (l := statements) ⟨st, hst⟩ (ih hss)
      exact mem_of_le mul_kstar_le_kstar hmul

/-- Sentences are statements one after the other. -/
theorem sentences_eq : sentences = statements∗ := by
  ext ts
  refine ⟨fun ⟨p, hp⟩ => mem_of_isBody hp, fun h => ?_⟩
  obtain ⟨ss, hss⟩ := isBody_of_mem h
  exact ⟨⟨ss⟩, hss⟩

/-! ## Statements -/

/-- The statements of a block and the `end` behind them. -/
def bodies : Language Token := statements∗ * token (word "end")

/-- What a block with a keyword is before its `end`. -/
inductive IsOpen : String → List Token → Prop
  | block {ts : List Token} : ts ∈ statements∗ → IsOpen "do" (word "do" :: ts)
  | conditional {cs ts : List Token} : cs ∈ conditions → ts ∈ statements∗ →
      IsOpen "if" (word "if" :: (cs ++ word "then" :: ts))
  | loop {cs ts : List Token} : cs ∈ conditions → ts ∈ statements∗ →
      IsOpen "while" (word "while" :: (cs ++ word "do" :: ts))
  | definition {ns ps ts : List Token} : ns ∈ names → ps ∈ parameterLists → ts ∈ statements∗ →
      IsOpen "function" (word "function" :: (ns ++ leftParen :: (ps ++ rightParen :: ts)))

theorem camera_le : token (word "set") * (token (word "camera") * (token leftParen *
    (sums * token rightParen))) ≤ statements := by
  rintro _ ⟨_, rfl, _, ⟨_, rfl, _, ⟨_, rfl, _, ⟨ts, ⟨e, h⟩, _, rfl, rfl⟩, rfl⟩, rfl⟩, rfl⟩
  exact ⟨_, .camera h⟩

theorem light_le : token (word "append") * (token (word "light") * calls) ≤ statements := by
  rintro _ ⟨_, rfl, _, ⟨_, rfl, _, ⟨_, rfl, _, ⟨ts, ⟨es, h⟩, _, rfl, rfl⟩, rfl⟩, rfl⟩, rfl⟩
  exact ⟨_, .light h⟩

/-- A body behind `do` is a statement. -/
theorem block_le : token (word "do") * bodies ≤ statements := by
  rintro _ ⟨_, rfl, _, ⟨ts, h, _, rfl, rfl⟩, rfl⟩
  obtain ⟨ss, hss⟩ := isBody_of_mem h
  exact ⟨_, .block hss⟩

/-- A body under a condition is a statement. -/
theorem conditional_le :
    token (word "if") * (conditions * (token (word "then") * bodies)) ≤ statements := by
  rintro _ ⟨_, rfl, _, ⟨cs, ⟨c, hc⟩, _, ⟨_, rfl, _, ⟨ts, h, _, rfl, rfl⟩, rfl⟩, rfl⟩, rfl⟩
  obtain ⟨ss, hss⟩ := isBody_of_mem h
  exact ⟨_, .conditional hc hss⟩

theorem loop_le :
    token (word "while") * (conditions * (token (word "do") * bodies)) ≤ statements := by
  rintro _ ⟨_, rfl, _, ⟨cs, ⟨c, hc⟩, _, ⟨_, rfl, _, ⟨ts, h, _, rfl, rfl⟩, rfl⟩, rfl⟩, rfl⟩
  obtain ⟨ss, hss⟩ := isBody_of_mem h
  exact ⟨_, .loop hc hss⟩

theorem call_le : token (word "call") * (names * calls) ≤ statements := by
  rintro _ ⟨_, rfl, _, ⟨_, ⟨t, name, rfl, hname⟩, _, ⟨_, rfl, _, ⟨ts, ⟨es, h⟩, _, rfl, rfl⟩, rfl⟩,
    rfl⟩, rfl⟩
  exact ⟨_, .call hname h⟩

/-- A function with its parameters and its body is a statement. -/
theorem definition_le : token (word "function") * (names * (token leftParen *
    (parameterLists * (token rightParen * bodies)))) ≤ statements := by
  rintro _ ⟨_, rfl, _, ⟨_, ⟨t, name, rfl, hname⟩, _, ⟨_, rfl, _, ⟨ps, ⟨params, hps⟩, _,
    ⟨_, rfl, _, ⟨ts, h, _, rfl, rfl⟩, rfl⟩, rfl⟩, rfl⟩, rfl⟩, rfl⟩
  obtain ⟨ss, hss⟩ := isBody_of_mem h
  exact ⟨_, .definition hname hps hss⟩

theorem command_le : oneTokenOf Command.all (fun c => word c.text) * calls ≤ statements := by
  rintro _ ⟨_, ⟨c, _, rfl⟩, _, ⟨_, rfl, _, ⟨ts, ⟨es, h⟩, _, rfl, rfl⟩, rfl⟩, rfl⟩
  exact ⟨_, .command c h⟩

/-- A name that is assigned to, with perhaps `local` before it. -/
def assignees : Language Token := (1 + token (word "local")) * (names * token equals)

/-- A name that is given a value is a statement. -/
theorem assignment_le : assignees * sums ≤ statements := by
  rintro _ ⟨_, ⟨ls, hls, _, ⟨_, ⟨t, name, rfl, hname⟩, _, rfl, rfl⟩, rfl⟩, ts, ⟨e, h⟩, rfl⟩
  rcases hls with rfl | rfl
  · exact ⟨_, .assignment false hname h⟩
  · exact ⟨_, .assignment true hname h⟩

/-- A statement under a transformation is a statement. -/
theorem transformation_le : oneTokenOf Transform.all (fun kind => word kind.text) *
    (token leftParen * (triples rightParen * statements)) ≤ statements := by
  rintro _ ⟨_, ⟨kind, _, rfl⟩, _, ⟨_, rfl, _, ⟨_, ⟨xs, ⟨x, hx⟩, _, ⟨_, rfl, _, ⟨ys, ⟨y, hy⟩, _,
    ⟨_, rfl, _, ⟨zs, ⟨z, hz⟩, _, rfl, rfl⟩, rfl⟩, rfl⟩, rfl⟩, rfl⟩, ts, ⟨st, h⟩, rfl⟩, rfl⟩, rfl⟩
  refine ⟨.transformation kind x y z st, ?_⟩
  have htransformation := IsStatement.transformation kind hx hy hz h
  simpa using htransformation

/-! ## No category is empty -/

section

variable {L M : Language Token}

theorem Occurs.mono [hL : Occurs L] (h : L ≤ M) : Occurs M := by
  obtain ⟨ts, hts⟩ := hL.exists_mem
  exact ⟨ts, h hts⟩

instance occurs_one : Occurs 1 := ⟨[], rfl⟩

instance occurs_token (t : Token) : Occurs (token t) := ⟨[t], rfl⟩

instance occurs_kstar : Occurs L∗ := ⟨[], Language.nil_mem_kstar L⟩

instance occurs_mul [hL : Occurs L] [hM : Occurs M] : Occurs (L * M) := by
  obtain ⟨ts, hts⟩ := hL.exists_mem
  obtain ⟨us, hus⟩ := hM.exists_mem
  exact ⟨ts ++ us, Language.append_mem_mul hts hus⟩

instance occurs_add [hL : Occurs L] : Occurs (L + M) := by
  obtain ⟨ts, hts⟩ := hL.exists_mem
  exact ⟨ts, .inl hts⟩

instance occurs_numbers : Occurs numbers := ⟨_, .infinite false, rfl⟩

instance occurs_texts : Occurs texts := ⟨_, "", rfl⟩

instance occurs_names : Occurs names := ⟨_, .identifier "x", "x", rfl, .identifier "x" (by decide)⟩

instance occurs_values : Occurs values := .mono names_le

instance occurs_negations : Occurs negations := .mono values_le

instance occurs_products : Occurs products := .mono products_le

instance occurs_sums : Occurs sums := .mono sums_le

instance occurs_conditions : Occurs conditions := .mono conditions_plain_le

instance occurs_argumentLists : Occurs argumentLists := .mono argumentLists_le

instance occurs_parameterLists : Occurs parameterLists := .mono parameterLists_le

instance occurs_separators : Occurs separators := occurs_add

instance occurs_triples (close : Token) : Occurs (triples close) := occurs_mul

instance occurs_calls : Occurs calls := occurs_mul

instance occurs_bodies : Occurs bodies := occurs_mul

instance occurs_statements : Occurs statements := .mono block_le

end

end SceneScript.Grammar
