import Reckoner.Proofs.Dependence

set_option autoImplicit false

namespace Reckoner

/-- Whether a symbol is never found in a text: because it is empty, or because it is no part of it. -/
def Text.Lacks (s : String) (cs : List Char) : Prop :=
  s = "" ∨ ¬ s.toList <:+: cs

namespace Text.Lacks

variable {s t : String} {cs rest : List Char}

theorem of_suffix (lacks : Lacks s cs) (suffix : rest <:+ cs) : Lacks s rest :=
  lacks.imp_right fun absent within => absent (within.trans suffix.isInfix)

theorem ne (lacks : Lacks s cs) (solid : t ≠ "") (within : t.toList <:+: cs) : t ≠ s := by
  rintro rfl
  exact lacks.elim solid fun absent => absent within

end Text.Lacks

/-- The settings `more` are those of `settings` and, anywhere among them, any number of settings of one
operator and of its level. -/
inductive Setting.Adds {φ : Type} (s : String) : List (Setting φ) → List (Setting φ) → Prop
  | nothing : Adds s [] []
  | kept {settings more : List (Setting φ)} (x : Setting φ) (others : Adds s settings more) :
      Adds s (x :: settings) (x :: more)
  | operator {settings more : List (Setting φ)} (o : Operator φ) (others : Adds s settings more) :
      Adds s settings (.operator s o :: more)
  | level {settings more : List (Setting φ)} (n : Int) (others : Adds s settings more) :
      Adds s settings (.level s n :: more)

theorem Lexer.items_congr {l k : Lexicon} {rest : List Char}
    (same : ∀ c after, c :: after <:+ rest → l.split? c after = k.split? c after)
    (position depth : Nat) :
    Source.items (Lexer.mk l rest position depth false) =
      Source.items (Lexer.mk k rest position depth false) := by
  induction size : rest.length using Nat.strongRecOn generalizing rest position depth with
  | _ n ih =>
    subst size
    cases rest with
    | nil => rw [items_of_nil, items_of_nil]
    | cons c after =>
      have here := same c after List.suffix_rfl
      cases split : l.split? c after with
      | none =>
        have split' := here.symm.trans split
        rw [items_of_unrecognized split, items_of_unrecognized split']
      | some found =>
        obtain ⟨kind, taken, behind⟩ := found
        have split' := here.symm.trans split
        cases counted : depthAfter? depth kind with
        | none => rw [items_of_mismatched split counted, items_of_mismatched split' counted]
        | some next =>
          obtain ⟨nonempty, whole⟩ := Lexicon.split?_append split
          have suffix : behind <:+ c :: after := ⟨taken, whole⟩
          have shorter : behind.length < (c :: after).length := by
            have positive := List.length_pos_iff.2 nonempty
            rw [← whole, List.length_append]
            omega
          have same' : ∀ e others, e :: others <:+ behind → l.split? e others = k.split? e others :=
            fun e others within => same e others (within.trans suffix)
          rw [items_of_split split counted, items_of_split split' counted,
            ih behind.length shorter same' _ next rfl]

namespace Config

variable {φ : Type} {c d : Config φ} {s : String}

/-- Whether two configurations say the same but for one symbol. -/
structure SameBut (s : String) (c d : Config φ) : Prop where
  operators : ∀ t ≠ s, c.operators[t]? = d.operators[t]?
  environment : c.environment = d.environment
  levels : ∀ t ≠ s, c.precedence.level? t = d.precedence.level? t
  rightAssociative : c.precedence.rightAssociative = d.precedence.rightAssociative
  classes : c.classes = d.classes

namespace SameBut

theorem refl (s : String) (c : Config φ) : c.SameBut s c :=
  ⟨fun _ _ => rfl, rfl, fun _ _ => rfl, rfl, rfl⟩

theorem symm (same : c.SameBut s d) : d.SameBut s c :=
  ⟨fun t other => (same.operators t other).symm, same.environment.symm,
    fun t other => (same.levels t other).symm, same.rightAssociative.symm, same.classes.symm⟩

theorem set (same : c.SameBut s d) (x : Setting φ) : (c.set x).SameBut s (d.set x) := by
  obtain ⟨operators, environment, levels, right, classes⟩ := same
  cases x with
  | operators table => exact ⟨fun _ _ => rfl, environment, levels, right, classes⟩
  | operator symbol o =>
    refine ⟨fun t other => ?_, environment, levels, right, classes⟩
    simp only [Config.set, Std.TreeMap.getElem?_insert, operators t other]
  | environment table => exact ⟨operators, rfl, levels, right, classes⟩
  | bind name value =>
    exact ⟨operators, congrArg (·.insert name value) environment, levels, right, classes⟩
  | levels table => exact ⟨operators, environment, fun _ _ => rfl, right, classes⟩
  | level symbol n =>
    refine ⟨operators, environment, fun t other => ?_, right, classes⟩
    have here := levels t other
    simp only [Precedence.level?] at here
    simp only [Config.set, Precedence.level?, Std.TreeMap.getElem?_insert, here]
  | rightAssociative symbols => exact ⟨operators, environment, levels, rfl, classes⟩
  | charClass role members =>
    exact ⟨operators, environment, levels, right, congrArg (·.update role members) classes⟩

theorem set_operator (same : c.SameBut s d) (o : Operator φ) :
    c.SameBut s (d.set (.operator s o)) := by
  refine ⟨fun t other => ?_, same.environment, same.levels, same.rightAssociative, same.classes⟩
  simp only [Config.set, Std.TreeMap.getElem?_insert, Std.LawfulEqCmp.compare_eq_iff_eq,
    if_neg other.symm, same.operators t other]

theorem set_level (same : c.SameBut s d) (n : Int) : c.SameBut s (d.set (.level s n)) := by
  refine ⟨same.operators, same.environment, fun t other => ?_, same.rightAssociative, same.classes⟩
  have here := same.levels t other
  simp only [Precedence.level?] at here
  simp only [Config.set, Precedence.level?, Std.TreeMap.getElem?_insert,
    Std.LawfulEqCmp.compare_eq_iff_eq, if_neg other.symm, here]

end SameBut

theorem sameBut_of_adds {settings more : List (Setting φ)} (adds : Setting.Adds s settings more)
    (same : c.SameBut s d) : (settings.foldl set c).SameBut s (more.foldl set d) := by
  induction adds generalizing c d with
  | nothing => exact same
  | kept x _ ih => exact ih (same.set x)
  | operator o _ ih => exact ih (same.set_operator o)
  | level n _ ih => exact ih (same.set_level n)

namespace SameBut

variable {cs : List Char}

theorem mem_operators (same : c.SameBut s d) {t : String} (other : t ≠ s) :
    t ∈ c.operators ↔ t ∈ d.operators := by
  rw [Std.TreeMap.mem_iff_isSome_getElem?, Std.TreeMap.mem_iff_isSome_getElem?,
    same.operators t other]

theorem symbolAt?_eq_some (same : c.SameBut s d) (lacks : Text.Lacks s cs) {symbol : String}
    (found : c.lexicon.symbolAt? cs = some symbol) : d.lexicon.symbolAt? cs = some symbol := by
  obtain ⟨known, solid, front, longest⟩ := symbolAt?_eq_some_iff.1 found
  have different := lacks.ne solid front.isInfix
  rw [mem_symbols, same.mem_operators different] at known
  refine symbolAt?_eq_some_iff.2 ⟨mem_symbols.2 known, solid, front, fun t known' fits => ?_⟩
  by_cases empty : t = ""
  · rw [empty]
    exact Nat.zero_le _
  · have different' := lacks.ne empty fits.isInfix
    rw [mem_symbols, ← same.mem_operators different'] at known'
    exact longest t (mem_symbols.2 known') fits

theorem symbolAt? (same : c.SameBut s d) (lacks : Text.Lacks s cs) :
    c.lexicon.symbolAt? cs = d.lexicon.symbolAt? cs :=
  Option.ext fun _ => ⟨same.symbolAt?_eq_some lacks, same.symm.symbolAt?_eq_some lacks⟩

theorem split? (same : c.SameBut s d) {first : Char} {rest : List Char}
    (lacks : Text.Lacks s (first :: rest)) :
    c.lexicon.split? first rest = d.lexicon.split? first rest := by
  have classes : c.lexicon.classes = d.lexicon.classes := same.classes
  simp only [Lexicon.split?, same.symbolAt? lacks, classes]

theorem tokens (same : c.SameBut s d) {source : String} (lacks : Text.Lacks s source.toList) :
    Source.items (c.tokens source) = Source.items (d.tokens source) :=
  Lexer.items_congr (fun _ _ suffix => same.split? (lacks.of_suffix suffix)) 0 0

theorem agree (same : c.SameBut s d) : Yard.Agree (· ≠ s) c.precedence d.precedence := by
  intro first second different different'
  rw [Precedence.goesFirst, same.levels first different, same.levels second different',
    Precedence.isRightAssociative, same.rightAssociative]
  rfl

end SameBut

theorem ne_of_mem_tokens {source : String} (lacks : Text.Lacks s source.toList) {t : Token}
    (member : .ok t ∈ Source.items (c.tokens source)) (kind : t.kind = .operator) : t.raw ≠ s := by
  obtain ⟨tokens, x, yields, within⟩ := Lexer.exists_yields_of_mem_items rfl member
  obtain ⟨before, after, whole, _⟩ := Token.exists_of_mem yields.consecutive within
  have solid := (symbol_of_yields yields within kind).1
  refine lacks.ne solid ⟨before.toList, after.toList ++ x.rest, ?_⟩
  rw [← yields.covers.text, whole]
  simp only [String.toList_append, String.toList_ofList, List.append_assoc]

theorem SameBut.instructions (same : c.SameBut s d) {source : String}
    (lacks : Text.Lacks s source.toList) :
    Source.items (c.instructions (c.tokens source)) =
      Source.items (d.instructions (d.tokens source)) :=
  items_congr (same.tokens lacks) same.agree fun _ => ne_of_mem_tokens lacks

theorem SameBut.servedAlike (same : c.SameBut s d) {source : String}
    (lacks : Text.Lacks s source.toList) {i : Instruction}
    (sent : .ok i ∈ Source.items (c.instructions (c.tokens source))) :
    Machine.ServedAlike c d i := by
  cases i with
  | apply symbol arity =>
    obtain ⟨⟨t, member, kind, rfl⟩, _⟩ := exists_token_of_mem_items sent
    have known : c.operator? t.raw = d.operator? t.raw :=
      same.operators t.raw (ne_of_mem_tokens lacks member kind)
    exact ⟨congrArg Option.isSome known, congrArg (·.bind (·.implementation? arity)) known⟩
  | load name => exact congrArg (·[name]?) same.environment
  | _ => trivial

/-- A source is worth what its instructions are worth, and otherwise its own fault. -/
theorem execute_of_stream [Host φ] {source : String} {program : Program} {fault : Option Fault}
    (items : Source.items (c.instructions (c.tokens source)) = program.stream fault) :
    c.execute source =
      ((Machine.empty.runProgram c program).bind fun last => fault.elim (.ok last) .error).map
        Machine.finish :=
  congrArg (Except.map Machine.finish) (Machine.runSource_of_items c items .empty)

/-- What sources come to is not changed by the settings of an operator, and of its level, whose symbol
they do not contain: neither the tokens, nor the program, nor the value, nor the faults. -/
theorem execute_of_adds [Host φ] {settings more : List (Setting φ)}
    (adds : Setting.Adds s settings more) {source : String}
    (lacks : Text.Lacks s source.toList) :
    let c : Config φ := build settings
    let d : Config φ := build more
    Source.items (c.tokens source) = Source.items (d.tokens source) ∧
      Source.items (c.instructions (c.tokens source)) =
        Source.items (d.instructions (d.tokens source)) ∧
      c.compile source = d.compile source ∧ c.execute source = d.execute source := by
  intro c d
  have same : c.SameBut s d := sameBut_of_adds adds (.refl s standard)
  have items := same.instructions lacks
  refine ⟨same.tokens lacks, items, congrArg (List.mapM id) items, ?_⟩
  obtain ⟨program, fault, streamed⟩ : ∃ program fault,
      Source.items (c.instructions (c.tokens source)) = Program.stream program fault :=
    ⟨_, _, Stage.items_new _ _⟩
  have served : ∀ i ∈ program, Machine.ServedAlike c d i := by
    intro i member
    refine same.servedAlike lacks ?_
    rw [streamed, Program.stream]
    exact List.mem_append_left _ (List.mem_map_of_mem member)
  rw [execute_of_stream streamed, execute_of_stream (items.symm.trans streamed),
    Machine.runProgram_congr .empty served]

/-- Another `>=` with another level changes nothing about `a>b=c`, in which its characters stand apart
from each other. -/
theorem execute_of_adds_apart :
    let _ : Host Unit := ⟨fun _ operands => return .list operands⟩
    let settings : List (Setting Unit) := [.bind "a" (.text "b"), .level "=" 7]
    let more : List (Setting Unit) := [.bind "a" (.text "b"), .operator ">=" (.unary pure),
      .level "=" 7, .level ">=" 99]
    (Setting.Adds ">=" settings more ∧ Text.Lacks ">=" "a>b=c".toList) ∧
      (build settings).compile "a>b=c" = (build more).compile "a>b=c" ∧
      (build settings).execute "a>b=c" = (build more).execute "a>b=c" := by
  intro _ settings more
  have adds : Setting.Adds ">=" settings more :=
    .kept _ <| .operator _ <| .kept _ <| .level 99 .nothing
  have lacks : Text.Lacks ">=" "a>b=c".toList := .inr (by decide)
  exact ⟨⟨adds, lacks⟩, (execute_of_adds adds lacks).2.2⟩

end Config

end Reckoner
