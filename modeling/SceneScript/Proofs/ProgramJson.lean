import SceneScript.Program.Json
import SceneScript.Proofs.Json.Printed
import SceneScript.Proofs.Json.Readable

/-!
# A program is read back from its JSON

The JSON of a program can be told from any text of it, however it is printed, and the program from its
JSON: the kinds of node have tags of their own, and a node's parts stand in the order of its fields.
JSON has no text for numbers that are not finite, so programs with such numbers are left out.
-/

namespace SceneScript

/-! ## Programs with finite numbers -/

namespace Expr

mutual

/-- Every number in the expression is finite. -/
def NumbersFinite : Expr → Prop
  | .number value => value.isFinite = true
  | .color _ | .text _ | .identifier _ => True
  | .rgb r g b => r.NumbersFinite ∧ g.NumbersFinite ∧ b.NumbersFinite
  | .vector x y z => x.NumbersFinite ∧ y.NumbersFinite ∧ z.NumbersFinite
  | .texture path => path.NumbersFinite
  | .solid _ args => AllNumbersFinite args
  | .paren inner => inner.NumbersFinite
  | .negate operand => operand.NumbersFinite
  | .binary left _ right => left.NumbersFinite ∧ right.NumbersFinite

/-- Every number in some expressions is finite. -/
def AllNumbersFinite : List Expr → Prop
  | [] => True
  | e :: es => e.NumbersFinite ∧ AllNumbersFinite es

end

end Expr

namespace Statement

mutual

/-- Every number in the statement is finite. -/
def NumbersFinite : Statement → Prop
  | .assignment _ _ value => value.NumbersFinite
  | .transformation _ x y z body =>
    x.NumbersFinite ∧ y.NumbersFinite ∧ z.NumbersFinite ∧ body.NumbersFinite
  | .definition _ _ body => AllNumbersFinite body
  | .call _ args => Expr.AllNumbersFinite args
  | .conditional condition body => condition.NumbersFinite ∧ AllNumbersFinite body
  | .loop condition body => condition.NumbersFinite ∧ AllNumbersFinite body
  | .block body => AllNumbersFinite body
  | .command _ args => Expr.AllNumbersFinite args
  | .light args => Expr.AllNumbersFinite args
  | .camera value => value.NumbersFinite

/-- Every number in some statements is finite. -/
def AllNumbersFinite : List Statement → Prop
  | [] => True
  | s :: ss => s.NumbersFinite ∧ AllNumbersFinite ss

end

end Statement

/-- Every number in the program is finite. -/
def Program.NumbersFinite (p : Program) : Prop := Statement.AllNumbersFinite p.statements

namespace Expr

mutual

theorem allFinite_toJson : (e : Expr) → e.NumbersFinite → e.toJson.AllFinite
  | .number _, h => ⟨h, trivial⟩
  | .color _, _ | .text _, _ | .identifier _, _ => ⟨trivial, trivial⟩
  | .rgb r g b, ⟨hr, hg, hb⟩ | .vector r g b, ⟨hr, hg, hb⟩ =>
    ⟨⟨allFinite_toJson r hr, allFinite_toJson g hg, allFinite_toJson b hb, trivial⟩, trivial⟩
  | .texture path, h => ⟨⟨allFinite_toJson path h, trivial⟩, trivial⟩
  | .solid _ args, h => ⟨⟨trivial, allFinite_toJsons args h, trivial⟩, trivial⟩
  | .paren inner, h => ⟨allFinite_toJson inner h, trivial⟩
  | .negate operand, h => ⟨allFinite_toJson operand h, trivial⟩
  | .binary left _ right, ⟨hleft, hright⟩ =>
    ⟨⟨allFinite_toJson left hleft, trivial, allFinite_toJson right hright, trivial⟩, trivial⟩

theorem allFinite_toJsons :
    (es : List Expr) → AllNumbersFinite es → Json.AllFiniteItems (toJsons es)
  | [], _ => trivial
  | e :: es, ⟨he, hes⟩ => ⟨allFinite_toJson e he, allFinite_toJsons es hes⟩

end

end Expr

namespace Statement

mutual

theorem allFinite_toJson : (s : Statement) → s.NumbersFinite → s.toJson.AllFinite
  | .assignment _ _ value, h => ⟨⟨trivial, trivial, value.allFinite_toJson h, trivial⟩, trivial⟩
  | .transformation _ x y z body, ⟨hx, hy, hz, hbody⟩ =>
    ⟨⟨trivial, ⟨x.allFinite_toJson hx, y.allFinite_toJson hy, z.allFinite_toJson hz, trivial⟩,
      allFinite_toJson body hbody, trivial⟩, trivial⟩
  | .definition _ params body, h => by
    have hparams : Json.AllFiniteItems (params.map .text) :=
      Json.allFiniteItems_iff.2 fun item hitem => by
        obtain ⟨param, -, rfl⟩ := List.mem_map.1 hitem
        trivial
    exact ⟨⟨trivial, hparams, allFinite_toJsons body h, trivial⟩, trivial⟩
  | .call _ args, h | .command _ args, h =>
    ⟨⟨trivial, Expr.allFinite_toJsons args h, trivial⟩, trivial⟩
  | .conditional condition body, ⟨hcondition, hbody⟩ | .loop condition body, ⟨hcondition, hbody⟩ =>
    ⟨⟨condition.allFinite_toJson hcondition, allFinite_toJsons body hbody, trivial⟩, trivial⟩
  | .block body, h => ⟨⟨allFinite_toJsons body h, trivial⟩, trivial⟩
  | .light args, h => ⟨⟨Expr.allFinite_toJsons args h, trivial⟩, trivial⟩
  | .camera value, h => ⟨⟨value.allFinite_toJson h, trivial⟩, trivial⟩

theorem allFinite_toJsons :
    (ss : List Statement) → AllNumbersFinite ss → Json.AllFiniteItems (toJsons ss)
  | [], _ => trivial
  | s :: ss, ⟨hs, hss⟩ => ⟨allFinite_toJson s hs, allFinite_toJsons ss hss⟩

end

end Statement

theorem Program.allFinite_toJson {p : Program} (h : p.NumbersFinite) : p.toJson.AllFinite :=
  ⟨Statement.allFinite_toJsons p.statements h, trivial⟩

/-! ## A program is told from its JSON -/

theorem Operator.tag_injective (a b : Operator) : a.tag = b.tag → a = b := by
  cases a <;> cases b <;> decide

theorem text_eq_iff {α : Type} {text : α → String} (h : ∀ a b, text a = text b → a = b) {a b : α} :
    text a = text b ↔ a = b :=
  ⟨h a b, congrArg text⟩

namespace Expr

mutual

/-- Expressions with the same JSON are the same. -/
theorem toJson_inj : (a b : Expr) → (a.toJson = b.toJson ↔ a = b)
  | .number x, e => by cases e <;> simp [toJson, Json.tagged]
  | .color c, e => by
    cases e <;> simp [toJson, Json.tagged, text_eq_iff Color.text_injective]
  | .rgb r g b, e => by
    cases e <;> simp [toJson, Json.tagged, toJson_inj r, toJson_inj g, toJson_inj b]
  | .vector x y z, e => by
    cases e <;> simp [toJson, Json.tagged, toJson_inj x, toJson_inj y, toJson_inj z]
  | .texture path, e => by cases e <;> simp [toJson, Json.tagged, toJson_inj path]
  | .solid kind args, e => by
    cases e <;> simp [toJson, Json.tagged, text_eq_iff Solid.text_injective, toJsons_inj args]
  | .paren inner, e => by cases e <;> simp [toJson, Json.tagged, toJson_inj inner]
  | .text value, e => by cases e <;> simp [toJson, Json.tagged]
  | .identifier name, e => by cases e <;> simp [toJson, Json.tagged]
  | .negate operand, e => by cases e <;> simp [toJson, Json.tagged, toJson_inj operand]
  | .binary left op right, e => by
    cases e <;> simp [toJson, Json.tagged, toJson_inj left, text_eq_iff Operator.tag_injective,
      toJson_inj right]

theorem toJsons_inj : (as bs : List Expr) → (toJsons as = toJsons bs ↔ as = bs)
  | [], bs => by cases bs <;> simp [toJsons]
  | a :: as, bs => by cases bs <;> simp [toJsons, toJson_inj a, toJsons_inj as]

end

end Expr

namespace Statement

theorem map_text_inj {names others : List String} :
    names.map Json.text = others.map Json.text ↔ names = others :=
  List.map_inj_right fun _ _ h => Json.text.inj h

mutual

/-- Statements with the same JSON are the same. -/
theorem toJson_inj : (a b : Statement) → (a.toJson = b.toJson ↔ a = b)
  | .assignment isLocal name value, s => by
    cases s <;> simp [toJson, Json.tagged, value.toJson_inj]
  | .transformation kind x y z body, s => by
    cases s <;> simp [toJson, Json.tagged, text_eq_iff Transform.text_injective, x.toJson_inj,
      y.toJson_inj, z.toJson_inj, toJson_inj body, and_assoc]
  | .definition name params body, s => by
    cases s <;> simp [toJson, Json.tagged, map_text_inj, toJsons_inj body]
  | .call name args, s => by cases s <;> simp [toJson, Json.tagged, Expr.toJsons_inj args]
  | .conditional condition body, s => by
    cases s <;> simp [toJson, Json.tagged, condition.toJson_inj, toJsons_inj body]
  | .loop condition body, s => by
    cases s <;> simp [toJson, Json.tagged, condition.toJson_inj, toJsons_inj body]
  | .block body, s => by cases s <;> simp [toJson, Json.tagged, toJsons_inj body]
  | .command name args, s => by
    cases s <;> simp [toJson, Json.tagged, text_eq_iff Command.text_injective,
      Expr.toJsons_inj args]
  | .light args, s => by cases s <;> simp [toJson, Json.tagged, Expr.toJsons_inj args]
  | .camera value, s => by cases s <;> simp [toJson, Json.tagged, value.toJson_inj]

theorem toJsons_inj : (as bs : List Statement) → (toJsons as = toJsons bs ↔ as = bs)
  | [], bs => by cases bs <;> simp [toJsons]
  | a :: as, bs => by cases bs <;> simp [toJsons, toJson_inj a, toJsons_inj as]

end

end Statement

theorem Program.toJson_inj {p q : Program} : p.toJson = q.toJson ↔ p = q := by
  cases p
  cases q
  simp [toJson, Statement.toJsons_inj]

/-- Programs with finite numbers are printed as JSON, and those with the same text, compact or indented,
are the same program.  The printers may be any that print JSON texts. -/
theorem program_eq_of_json {compact pretty : Json.Printer} (hcompact : Json.Prints compact)
    (hpretty : Json.Prints pretty) {p q : Program} (hp : p.NumbersFinite) (hq : q.NumbersFinite) :
    (∃ text other, compact p.toJson = .ok text ∧ compact q.toJson = .ok other
        ∧ (text = other → p = q))
      ∧ ∃ text other, pretty p.toJson = .ok text ∧ pretty q.toJson = .ok other
        ∧ (text = other → p = q) := by
  have hprinted : ∀ {printer : Json.Printer}, Json.Prints printer → ∃ text other,
      printer p.toJson = .ok text ∧ printer q.toJson = .ok other ∧ (text = other → p = q) := by
    intro printer h
    obtain ⟨text, other, htext, hother, hsame⟩ :=
      h.exists_text (Program.allFinite_toJson hp) (Program.allFinite_toJson hq)
    exact ⟨text, other, htext, hother, Program.toJson_inj.1 ∘ hsame⟩
  exact ⟨hprinted hcompact, hprinted hpretty⟩

/-- The two zeros are told apart in both texts. -/
theorem json_of_zeros_ne :
    let zero : Program := ⟨[.camera (.number .zero)]⟩
    let negated : Program := ⟨[.camera (.number Binary64.zero.negate)]⟩
    Json.Prints (fun value => .ok value.compact) ∧ Json.Prints (fun value => .ok value.pretty)
      ∧ zero.NumbersFinite ∧ negated.NumbersFinite
      ∧ zero.toJson.compact
        = "\x7b\"statements\":[\x7b\"set_camera\":\x7b\"value\":\x7b\"number\":0.0\x7d\x7d\x7d]\x7d"
      ∧ zero.toJson.compact ≠ negated.toJson.compact
      ∧ zero.toJson.pretty ≠ negated.toJson.pretty := by
  intro zero negated
  have hne : zero ≠ negated := by decide
  have hzero : zero.NumbersFinite := ⟨rfl, trivial⟩
  have hnegated : negated.NumbersFinite := ⟨rfl, trivial⟩
  obtain ⟨⟨_, _, ⟨⟩, ⟨⟩, hcompact⟩, _, _, ⟨⟩, ⟨⟩, hpretty⟩ :=
    program_eq_of_json Json.prints_compact Json.prints_pretty hzero hnegated
  exact ⟨Json.prints_compact, Json.prints_pretty, hzero, hnegated, by decide +kernel,
    hne ∘ hcompact, hne ∘ hpretty⟩

end SceneScript
