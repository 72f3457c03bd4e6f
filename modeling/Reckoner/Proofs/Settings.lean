import Reckoner.Proofs.Lexicon.Longest
import Reckoner.Proofs.Text.Order

set_option autoImplicit false

/-!
What a configuration answers after any number of settings.

A setting belongs to one part of a configuration and says something of one key of it, or of all of
them where it replaces the part. So what is looked up is what the last setting that says anything of
it says, and no setting of another part or of another key has to do with it. The symbols are not set:
they are what the table of operators holds, in one order, whichever way the table has come about.
-/

namespace Reckoner

namespace CharClasses

theorem update_comm (classes : CharClasses) {role other : CharRole} (apart : role ≠ other)
    (members others : Char → Bool) :
    (classes.update role members).update other others =
      (classes.update other others).update role members := by
  funext r
  by_cases first : r = role
  · subst first
    rw [update_other _ apart, update_same, update_same]
  · rw [update_other _ first]
    by_cases second : r = other
    · subst second
      rw [update_same, update_same]
    · rw [update_other _ second, update_other _ second, update_other _ first]

end CharClasses

/-- What is replaced by one setting as a whole. -/
inductive Config.Part where
  | operators
  | environment
  | levels
  | rightAssociative
  | charClass (role : CharRole)
deriving DecidableEq, Repr

namespace Setting

variable {φ : Type}

def part : Setting φ → Config.Part
  | operators _ => .operators
  | operator _ _ => .operators
  | environment _ => .environment
  | bind _ _ => .environment
  | levels _ => .levels
  | level _ _ => .levels
  | rightAssociative _ => .rightAssociative
  | charClass role _ => .charClass role

/-- The one key that the setting is about, if it does not replace the whole part. -/
def key? : Setting φ → Option String
  | operator symbol _ => some symbol
  | bind name _ => some name
  | level symbol _ => some symbol
  | _ => none

end Setting

namespace Config

variable {φ α : Type}

/-- What can be looked up in a configuration, by the type of what is found. -/
inductive Lookup (φ : Type) : Type → Type where
  | operator (symbol : String) : Lookup φ (Option (Operator φ))
  | bound (name : String) : Lookup φ (Option (Value φ))
  | level (symbol : String) : Lookup φ (Option Int)
  | rightAssociative (symbol : String) : Lookup φ Bool
  | charClass (role : CharRole) : Lookup φ (Char → Bool)

namespace Lookup

def part : Lookup φ α → Part
  | operator _ => .operators
  | bound _ => .environment
  | level _ => .levels
  | rightAssociative _ => .rightAssociative
  | charClass role => .charClass role

def key? : Lookup φ α → Option String
  | operator symbol => some symbol
  | bound name => some name
  | level symbol => some symbol
  | rightAssociative symbol => some symbol
  | charClass _ => none

def ask : Lookup φ α → Config φ → α
  | operator symbol, c => c.operator? symbol
  | bound name, c => c.bound? name
  | level symbol, c => c.precedence.level? symbol
  | rightAssociative symbol, c => c.precedence.isRightAssociative symbol
  | charClass role, c => c.classes role

section keyed

variable {κ β : Type} [DecidableEq κ]

/-- The value if it is said of the key that is looked up. -/
def keyed (key sought : κ) (value : β) : Option β :=
  if key = sought then some value else none

@[simp] theorem keyed_self (key : κ) (value : β) : keyed key key value = some value :=
  if_pos rfl

theorem keyed_of_ne {key sought : κ} (apart : key ≠ sought) (value : β) :
    keyed key sought value = none :=
  if_neg apart

end keyed

/-- What a setting by itself answers, if it says anything of what is looked up. -/
def told : Lookup φ α → Setting φ → Option α
  | operator symbol, .operators table => some table[symbol]?
  | operator symbol, .operator other o => keyed other symbol (some o)
  | bound name, .environment table => some table[name]?
  | bound name, .bind other value => keyed other name (some value)
  | level symbol, .levels table => some table[symbol]?
  | level symbol, .level other n => keyed other symbol (some n)
  | rightAssociative symbol, .rightAssociative symbols => some (symbols.contains symbol)
  | charClass role, .charClass other members => keyed other role members
  | _, _ => none

/-- Whether a setting is of the part that is looked in, and of the key or of the whole part. -/
def Meets (q : Lookup φ α) (x : Setting φ) : Prop :=
  x.part = q.part ∧ (x.key? = none ∨ x.key? = q.key?)

theorem getElem?_insert {β : Type} (table : Table β) (key sought : String) (value : β) :
    (table.insert key value)[sought]? = (keyed key sought (some value)).getD table[sought]? := by
  by_cases same : key = sought
  · rw [same, Std.TreeMap.getElem?_insert_self, keyed_self, Option.getD_some]
  · rw [keyed_of_ne same, Option.getD_none, Std.TreeMap.getElem?_insert, if_neg]
    rwa [Std.LawfulEqCmp.compare_eq_iff_eq]

variable {q : Lookup φ α} {x : Setting φ}

theorem isSome_told_iff : (q.told x).isSome ↔ q.Meets x := by
  have whole {answer : α} (here : x.part = q.part) (replaces : x.key? = none) :
      (some answer).isSome ↔ q.Meets x :=
    iff_of_true rfl ⟨here, Or.inl replaces⟩
  have silent (elsewhere : x.part ≠ q.part) : (none : Option α).isSome ↔ q.Meets x :=
    iff_of_false nofun fun meets => elsewhere meets.1
  have single {key sought : String} {answer : α} (here : x.part = q.part)
      (given : x.key? = some key) (asked : q.key? = some sought) :
      (keyed key sought answer).isSome ↔ q.Meets x := by
    rw [Meets, given, asked, Option.some.injEq]
    by_cases same : key = sought
    · rw [same, keyed_self]
      exact iff_of_true rfl ⟨here, Or.inr rfl⟩
    · rw [keyed_of_ne same]
      exact iff_of_false nofun fun meets => meets.2.elim nofun same
  cases q with
  | operator symbol =>
    cases x with
    | operators table => exact whole rfl rfl
    | operator other o => exact single rfl rfl rfl
    | _ => exact silent nofun
  | bound name =>
    cases x with
    | environment table => exact whole rfl rfl
    | bind other value => exact single rfl rfl rfl
    | _ => exact silent nofun
  | level symbol =>
    cases x with
    | levels table => exact whole rfl rfl
    | level other n => exact single rfl rfl rfl
    | _ => exact silent nofun
  | rightAssociative symbol =>
    cases x with
    | rightAssociative symbols => exact whole rfl rfl
    | _ => exact silent nofun
  | charClass role =>
    cases x with
    | charClass other members =>
      change (keyed other role members).isSome ↔ _
      by_cases same : other = role
      · rw [same, keyed_self]
        exact iff_of_true rfl ⟨rfl, Or.inl rfl⟩
      · rw [keyed_of_ne same]
        exact silent fun alike => same (Part.charClass.inj alike)
    | _ => exact silent nofun

/-- A setting changes what it says something of to what it says. -/
theorem ask_set (q : Lookup φ α) (c : Config φ) (x : Setting φ) :
    q.ask (c.set x) = (q.told x).getD (q.ask c) := by
  cases q with
  | operator symbol =>
    cases x with
    | operator other o => exact getElem?_insert c.operators other symbol o
    | _ => rfl
  | bound name =>
    cases x with
    | bind other value => exact getElem?_insert c.environment other name value
    | _ => rfl
  | level symbol =>
    cases x with
    | level other n => exact getElem?_insert c.precedence.levels other symbol n
    | _ => rfl
  | rightAssociative symbol => cases x <;> rfl
  | charClass role =>
    cases x with
    | charClass other members =>
      change c.classes.update other members role = (keyed other role members).getD (c.classes role)
      by_cases same : other = role
      · rw [same, keyed_self, CharClasses.update_same, Option.getD_some]
      · rw [keyed_of_ne same, CharClasses.update_other _ (Ne.symm same), Option.getD_none]
    | _ => rfl

/-- After a run of settings the last one that says something of what is looked up is the answer. -/
theorem ask_foldl (q : Lookup φ α) (settings : List (Setting φ)) (c : Config φ) :
    q.ask (settings.foldl set c) = (settings.reverse.findSome? q.told).getD (q.ask c) := by
  induction settings generalizing c with
  | nil => rfl
  | cons x later ih =>
    rw [List.foldl_cons, ih, ask_set, List.reverse_cons, List.findSome?_append,
      List.findSome?_singleton]
    cases later.reverse.findSome? q.told with
    | none => rfl
    | some answer => rfl

end Lookup

theorem set_comm {x y : Setting φ} (apart : x.part ≠ y.part) (c : Config φ) :
    (c.set x).set y = (c.set y).set x := by
  cases x with
  | charClass role members =>
    cases y with
    | charClass other others =>
      have different : role ≠ other := fun same => apart (congrArg Part.charClass same)
      exact congrArg (fun classes => { c with classes })
        (c.classes.update_comm different members others)
    | _ => rfl
  | _ => cases y <;> first | rfl | exact absurd rfl apart

theorem build_append (front back : List (Setting φ)) :
    build (front ++ back) = back.foldl set (build front) :=
  List.foldl_append

section lookup

variable {q : Lookup φ α} {x : Setting φ}

theorem told_eq_none (apart : ¬ q.Meets x) : q.told x = none := by
  rwa [← Lookup.isSome_told_iff, Option.not_isSome_iff_eq_none] at apart

theorem ask_build_of_not_meets (apart : ¬ q.Meets x) (front back : List (Setting φ)) :
    q.ask (build (front ++ x :: back)) = q.ask (build (front ++ back)) := by
  rw [build_append, build_append, List.foldl_cons, q.ask_foldl, q.ask_foldl, q.ask_set,
    told_eq_none apart, Option.getD_none]

/-- Of what a part was before a setting that replaces it nothing is left. -/
theorem ask_build_of_whole (here : x.part = q.part) (replaces : x.key? = none)
    (front back : List (Setting φ)) :
    some (q.ask (build (front ++ x :: back))) = (back.reverse.findSome? q.told).or (q.told x) := by
  have spoken : (q.told x).isSome := Lookup.isSome_told_iff.2 ⟨here, Or.inl replaces⟩
  obtain ⟨answer, told⟩ := Option.isSome_iff_exists.1 spoken
  rw [build_append, List.foldl_cons, q.ask_foldl, q.ask_set, told, Option.getD_some]
  cases back.reverse.findSome? q.told with
  | none => rfl
  | some later => rfl

end lookup

theorem findSome?_told_bind (name : String) (bindings : List (String × Value φ)) :
    (bindings.map fun (n, value) => Setting.bind n value).findSome? (Lookup.bound name).told =
      (bindings.lookup name).map some := by
  induction bindings with
  | nil => rfl
  | cons binding others ih =>
    obtain ⟨n, value⟩ := binding
    have told : (Lookup.bound name).told (.bind n value) = Lookup.keyed n name (some value) := rfl
    rw [List.map_cons, List.findSome?_cons, told, List.lookup_cons, ih]
    by_cases same : n = name
    · rw [same, Lookup.keyed_self, beq_self_eq_true]
      rfl
    · rw [Lookup.keyed_of_ne same, beq_eq_false_iff_ne.2 (Ne.symm same)]

/-- Of several values for one name the last one is bound. -/
theorem bound?_withBindings (bindings : List (String × Value φ)) (name : String) :
    (withBindings bindings).bound? name = bindings.reverse.lookup name := by
  have asked := (Lookup.bound name).ask_foldl
    (bindings.map fun (n, value) => Setting.bind n value) (standard (φ := φ))
  rw [← List.map_reverse, findSome?_told_bind] at asked
  refine asked.trans ?_
  cases bindings.reverse.lookup name with
  | none => exact Std.TreeMap.getElem?_emptyc
  | some value => rfl

theorem ask_withBindings {q : Lookup φ α} (apart : q.part ≠ .environment)
    (bindings : List (String × Value φ)) : q.ask (withBindings bindings) = q.ask standard := by
  have silent : (bindings.map fun (n, value) => Setting.bind n value).reverse.findSome? q.told =
      none := by
    rw [List.findSome?_eq_none_iff]
    intro x member
    obtain ⟨binding, -, rfl⟩ := List.mem_map.1 (List.mem_reverse.1 member)
    exact told_eq_none fun meets => apart meets.1.symm
  rw [withBindings, build, q.ask_foldl, silent, Option.getD_none]

theorem mem_symbols_iff {c : Config φ} {symbol : String} :
    symbol ∈ c.symbols ↔ (c.operator? symbol).isSome := by
  rw [mem_symbols, Std.TreeMap.mem_iff_isSome_getElem?, operator?]

/-- The symbols in their order: the longer in bytes first, and of two that are as long the one whose
bytes come first. -/
theorem pairwise_symbols_bytes (c : Config φ) :
    c.symbols.Pairwise fun s t =>
      t.utf8ByteSize < s.utf8ByteSize ∨
        (t.utf8ByteSize = s.utf8ByteSize ∧ s.toByteArray.data.toList < t.toByteArray.data.toList) := by
  refine c.pairwise_symbols.imp fun {s t} before => ?_
  rwa [Lexicon.ComesBefore, Text.lt_iff_bytes_lt] at before

/-- Whatever is looked up in a configuration is what the last setting says that is of its part and
replaces the part or is of its key, and the standard without one. A setting of another part or another
key may as well not be there, a setting that replaces a part leaves nothing of what was there before
it, and two settings of different parts can change places. The symbols are the keys of the table of
operators, each once, the longest first and otherwise by their bytes. To bind values to names is to
make settings of names alone. -/
theorem last_setting_decides (settings front back : List (Setting φ)) (x y : Setting φ)
    (bindings : List (String × Value φ)) :
    (∀ {α : Type} (q : Lookup φ α),
      q.ask (build settings) = (settings.reverse.findSome? q.told).getD (q.ask standard) ∧
      ((q.told x).isSome ↔ x.part = q.part ∧ (x.key? = none ∨ x.key? = q.key?)) ∧
      (¬ q.Meets x → q.ask (build (front ++ x :: back)) = q.ask (build (front ++ back))) ∧
      (x.part = q.part → x.key? = none →
        some (q.ask (build (front ++ x :: back))) =
          (back.reverse.findSome? q.told).or (q.told x))) ∧
    (x.part ≠ y.part → build (front ++ x :: y :: back) = build (front ++ y :: x :: back)) ∧
    (build settings).symbols.Nodup ∧
    (∀ symbol, symbol ∈ (build settings).symbols ↔ ((build settings).operator? symbol).isSome) ∧
    ((build settings).symbols.Pairwise fun s t =>
      t.utf8ByteSize < s.utf8ByteSize ∨
        (t.utf8ByteSize = s.utf8ByteSize ∧
          s.toByteArray.data.toList < t.toByteArray.data.toList)) ∧
    withBindings bindings = build (bindings.map fun (name, value) => .bind name value) ∧
    (∀ name, (withBindings bindings).bound? name = bindings.reverse.lookup name) ∧
    (∀ {α : Type} (q : Lookup φ α), q.part ≠ .environment →
      q.ask (withBindings bindings) = q.ask standard) := by
  refine ⟨fun q => ⟨q.ask_foldl settings standard, Lookup.isSome_told_iff, ?_, ?_⟩, ?_,
    nodup_symbols _, fun _ => mem_symbols_iff, pairwise_symbols_bytes _, rfl,
    bound?_withBindings bindings, fun _ apart => ask_withBindings apart bindings⟩
  · exact fun apart => ask_build_of_not_meets apart front back
  · exact fun here replaces => ask_build_of_whole here replaces front back
  · intro apart
    rw [build_append, build_append, List.foldl_cons, List.foldl_cons, List.foldl_cons,
      List.foldl_cons, set_comm apart]

end Config

end Reckoner
