import Mathlib.Data.List.Basic
import RemoteConfig.Proofs.Opposites
/-! # Patterns as regular expressions

A pattern covers a text that can be split into one piece for each of its characters: any piece for a
`*`, one character for a `?`, and the character itself otherwise.  The text is not compared with the
pattern but with a regular expression that is written from left to right, whose literal characters
wait until the next wildcard to be escaped together.  Reading that expression gives the elements of
the pattern back, whatever characters it has, and matching them decides whether it covers a text. -/

namespace RemoteConfig

/-! ## The specification -/

namespace Glob

/-- The pieces of a text that a character of a pattern stands for. -/
inductive Stands : Char → List Char → Prop
  | run (piece : List Char) : Stands '*' piece
  | one (c : Char) : Stands '?' [c]
  | self {c : Char} (hrun : c ≠ '*') (hone : c ≠ '?') : Stands c [c]

/-- The text consists of one piece for each character of the pattern, in order. -/
def Covers (pattern subject : String) : Prop :=
  ∃ pieces : List (List Char),
    pieces.flatten = subject.toList ∧ List.Forall₂ Stands pattern.toList pieces

end Glob

/-! ## Characters with a meaning -/

namespace Wildcard

theorem ne_of_isMeta_eq_false {c d : Char} (hc : isMeta c = false) (hd : isMeta d = true) :
    c ≠ d := by
  rintro rfl
  rw [hc] at hd
  exact Bool.false_ne_true hd

/-- What an element is written as never begins with a star. -/
theorem head?_regex_ne_star (part : Wildcard) (rest : List Char) :
    (part.regex ++ rest).head? ≠ some '*' := by
  cases part with
  | run => simp [regex]
  | one => simp [regex]
  | char c =>
      cases hc : isMeta c with
      | true => simp [regex, hc]
      | false => simpa [regex, hc] using ne_of_isMeta_eq_false hc (d := '*') (by decide)

theorem ofChar_of_ne {c : Char} (hrun : c ≠ '*') (hone : c ≠ '?') : ofChar c = .char c := by
  unfold ofChar
  split
  · exact absurd rfl hrun
  · exact absurd rfl hone
  · rfl

end Wildcard

/-! ## Writing and reading the expression -/

namespace Glob

theorem toList_escape (s : String) :
    (escape s).toList = s.toList.flatMap fun c => (Wildcard.char c).regex :=
  String.toList_ofList

theorem Translation.toList_flush (t : Translation) :
    t.flush.toList = t.out.toList ++ t.literal.toList.flatMap fun c => (Wildcard.char c).regex := by
  rw [flush, String.toList_append, toList_escape]

/-- A character is written to the expression at once or waits with the literal characters; either
way it stands after all that came before it. -/
theorem Translation.toList_flush_push (t : Translation) (c : Char) :
    (t.push c).flush.toList = t.flush.toList ++ (Wildcard.ofChar c).regex := by
  unfold push
  split
  · rename_i d hd
    rw [hd, toList_flush, toList_flush, String.toList_push, List.flatMap_append, List.append_assoc,
      List.flatMap_singleton]
  · rw [toList_flush, String.toList_append, String.toList_ofList]
    simp

theorem toList_flush_foldl (cs : List Char) (t : Translation) :
    (cs.foldl Translation.push t).flush.toList =
      t.flush.toList ++ cs.flatMap fun c => (Wildcard.ofChar c).regex := by
  induction cs generalizing t with
  | nil => simp
  | cons c cs ih =>
      rw [List.foldl_cons, ih, Translation.toList_flush_push, List.append_assoc, List.flatMap_cons]

theorem toList_translate (pattern : String) : (translate pattern).toList =
    ['(', '?', 's', ')', '^'] ++
      ((pattern.toList.map Wildcard.ofChar).flatMap Wildcard.regex ++ ['$']) := by
  rw [translate, String.toList_append, toList_flush_foldl, Translation.toList_flush,
    List.flatMap_map]
  simp

theorem readParts?_one {rest : List Char} (h : rest.head? ≠ some '*') (before : List Wildcard) :
    readParts? ('.' :: rest) before = readParts? rest (.one :: before) := by
  cases rest with
  | nil => rfl
  | cons c rest =>
      have hc : c ≠ '*' := by simpa using h
      rw [readParts?]
      rintro rest' h'
      exact hc (List.cons.inj h').1

theorem readParts?_self {c : Char} (h : Wildcard.isMeta c = false) (rest : List Char)
    (before : List Wildcard) :
    readParts? (c :: rest) before = readParts? rest (.char c :: before) := by
  have hne : ∀ {d}, Wildcard.isMeta d = true → c ≠ d := Wildcard.ne_of_isMeta_eq_false h
  have hdollar : c ≠ '$' := hne (by decide)
  have hdot : c ≠ '.' := hne (by decide)
  have hbackslash : c ≠ '\\' := hne (by decide)
  rw [readParts?]
  · simp [h]
  all_goals simp_all

/-- What is written is read back, also where a star follows a dot and where characters have a
meaning. -/
theorem readParts?_flatMap (parts before : List Wildcard) :
    readParts? (parts.flatMap Wildcard.regex ++ ['$']) before = some (before.reverse ++ parts) := by
  induction parts generalizing before with
  | nil => simp [readParts?]
  | cons part parts ih =>
      have hread : readParts? ((part :: parts).flatMap Wildcard.regex ++ ['$']) before =
          readParts? (parts.flatMap Wildcard.regex ++ ['$']) (part :: before) := by
        rw [List.flatMap_cons, List.append_assoc]
        cases part with
        | run => rfl
        | one =>
            -- no element is written with a star in front, so the dot stays alone
            refine readParts?_one ?_ before
            cases parts with
            | nil => simp
            | cons next parts =>
                rw [List.flatMap_cons, List.append_assoc]
                exact next.head?_regex_ne_star _
        | char c =>
            cases hc : Wildcard.isMeta c with
            | true => simp [Wildcard.regex, hc, readParts?]
            | false =>
                simp only [Wildcard.regex, hc]
                exact readParts?_self hc _ before
      rw [hread, ih, List.reverse_cons, List.append_assoc, List.singleton_append]

theorem ofRegex?_translate (pattern : String) :
    ofRegex? (translate pattern) = some (ofString pattern) := by
  rw [ofRegex?, toList_translate]
  simp only [List.cons_append, List.nil_append, readParts?_flatMap, Option.map_some,
    List.reverse_nil, ofString]

/-- What a pattern is compiled to are its elements. -/
theorem compile?_eq_some {pattern : String} {g : Glob} (h : compile? pattern = some g) :
    g = ofString pattern := by
  rw [compile?, ofRegex?_translate, Option.filter_eq_some_iff] at h
  exact (Option.some.inj h.1).symm

end Glob

/-! ## Matching -/

namespace Wildcard

/-- The pieces of a text that an element matches. -/
def Admits : Wildcard → List Char → Prop
  | char c, piece => piece = [c]
  | one, piece => ∃ c, piece = [c]
  | run, _ => True

/-- The text consists of one piece for each of the elements, in order. -/
def Match (parts : List Wildcard) (text : List Char) : Prop :=
  ∃ pieces : List (List Char), pieces.flatten = text ∧ List.Forall₂ Admits parts pieces

theorem match_nil {text : List Char} : Match [] text ↔ text = [] := by
  constructor
  · rintro ⟨pieces, rfl, h⟩
    cases h
    rfl
  · rintro rfl
    exact ⟨[], rfl, .nil⟩

/-- The first element takes a piece from the front of the text. -/
theorem match_cons {part : Wildcard} {parts : List Wildcard} {text : List Char} :
    Match (part :: parts) text ↔
      ∃ piece rest, text = piece ++ rest ∧ part.Admits piece ∧ Match parts rest := by
  constructor
  · rintro ⟨pieces, rfl, h⟩
    cases h with
    | cons hpiece hpieces => exact ⟨_, _, rfl, hpiece, _, rfl, hpieces⟩
  · rintro ⟨piece, -, rfl, hpiece, pieces, rfl, hpieces⟩
    exact ⟨piece :: pieces, rfl, .cons hpiece hpieces⟩

variable {parts : List Wildcard} {c : Char} {text : List Char}

theorem match_run_nil : Match (run :: parts) [] ↔ Match parts [] := by
  rw [match_cons]
  constructor
  · rintro ⟨piece, rest, h, -, hrest⟩
    obtain ⟨rfl, rfl⟩ := List.append_eq_nil_iff.mp h.symm
    exact hrest
  · exact fun h => ⟨[], [], rfl, trivial, h⟩

/-- A run ends before the first character, or it takes it and goes on. -/
theorem match_run_cons :
    Match (run :: parts) (c :: text) ↔ Match parts (c :: text) ∨ Match (run :: parts) text := by
  rw [match_cons, match_cons]
  constructor
  · rintro ⟨piece, rest, h, -, hrest⟩
    cases piece with
    | nil => exact Or.inl (h ▸ hrest)
    | cons d piece =>
        obtain ⟨-, rfl⟩ := List.cons.inj h
        exact Or.inr ⟨piece, rest, rfl, trivial, hrest⟩
  · rintro (h | ⟨piece, rest, rfl, -, hrest⟩)
    · exact ⟨[], c :: text, rfl, trivial, h⟩
    · exact ⟨c :: piece, rest, rfl, trivial, hrest⟩

theorem not_match_nil {part : Wildcard} (h : part ≠ run) : ¬ Match (part :: parts) [] := by
  rw [match_cons]
  rintro ⟨piece, rest, htext, hpiece, -⟩
  obtain ⟨rfl, -⟩ := List.append_eq_nil_iff.mp htext.symm
  cases part with
  | char c => cases hpiece
  | one => obtain ⟨c, hc⟩ := hpiece; cases hc
  | run => exact h rfl

theorem match_one_cons : Match (one :: parts) (c :: text) ↔ Match parts text := by
  rw [match_cons]
  constructor
  · rintro ⟨-, rest, h, ⟨d, rfl⟩, hrest⟩
    obtain ⟨-, rfl⟩ := List.cons.inj h
    exact hrest
  · exact fun h => ⟨[c], text, rfl, ⟨c, rfl⟩, h⟩

theorem match_char_cons {d : Char} :
    Match (char d :: parts) (c :: text) ↔ c = d ∧ Match parts text := by
  rw [match_cons]
  constructor
  · rintro ⟨-, rest, h, rfl, hrest⟩
    obtain ⟨rfl, rfl⟩ := List.cons.inj h
    exact ⟨rfl, hrest⟩
  · rintro ⟨rfl, h⟩
    exact ⟨[c], text, rfl, rfl, h⟩

/-- The flags of a text tell of each of its ends whether the elements match it. -/
def Marks (parts : List Wildcard) (text : List Char) (flags : List Bool) : Prop :=
  List.Forall₂ (fun rest flag => flag = true ↔ Match parts rest) text.tails flags

theorem Marks.headD {flags : List Bool} (h : Marks parts text flags) :
    flags.headD false = true ↔ Match parts text := by
  cases text with
  | nil =>
      change List.Forall₂ _ [[]] flags at h
      cases h with
      | cons hflag => exact hflag
  | cons c text =>
      rw [Marks, List.tails_cons] at h
      cases h with
      | cons hflag => exact hflag

theorem marks_endFlags (text : List Char) : Marks [] text (Glob.endFlags text) := by
  induction text with
  | nil => exact .cons (by simp [match_nil]) .nil
  | cons c text ih =>
      rw [Marks, List.tails_cons]
      exact .cons (by simp [match_nil]) ih

/-- One more element in front: the flags of a text follow from those of the text without its first
character, and from the old flags. -/
theorem Marks.extend (part : Wildcard) {flags : List Bool} (h : Marks parts text flags) :
    Marks (part :: parts) text (part.extend text flags) := by
  induction text generalizing flags with
  | nil =>
      change List.Forall₂ _ [[]] flags at h
      cases h with
      | cons hflag hflags =>
          cases hflags
          cases part with
          | run => exact .cons (hflag.trans match_run_nil.symm) .nil
          | one => exact .cons (by simp [not_match_nil]) .nil
          | char d => exact .cons (by simp [not_match_nil]) .nil
  | cons c text ih =>
      rw [Marks, List.tails_cons] at h
      cases h with
      | cons hflag hflags =>
          have hrest : Marks (part :: parts) text (part.extend text _) := ih hflags
          have hhead := Marks.headD hflags
          rw [Marks, List.tails_cons]
          cases part with
          | run =>
              -- the flag is the old one, or that of the run one character further on
              refine .cons ?_ hrest
              rw [Bool.or_eq_true, hflag, hrest.headD, match_run_cons]
          | one => exact .cons (hhead.trans match_one_cons.symm) hrest
          | char d =>
              refine .cons ?_ hrest
              rw [Bool.and_eq_true, beq_iff_eq, hhead, match_char_cons]

end Wildcard

namespace Glob

theorem isMatch_iff (g : Glob) (s : String) :
    g.isMatch s = true ↔ Wildcard.Match g.parts s.toList := by
  have hmarks : ∀ parts : List Wildcard, Wildcard.Marks parts s.toList
      (parts.foldr (fun part flags => part.extend s.toList flags) (endFlags s.toList)) := by
    intro parts
    induction parts with
    | nil => exact Wildcard.marks_endFlags _
    | cons part parts ih => exact ih.extend part
  exact (hmarks g.parts).headD

theorem admits_ofChar {c : Char} {piece : List Char} :
    (Wildcard.ofChar c).Admits piece ↔ Stands c piece := by
  by_cases hrun : c = '*'
  · subst hrun
    exact iff_of_true trivial (.run piece)
  by_cases hone : c = '?'
  · subst hone
    constructor
    · rintro ⟨d, rfl⟩
      exact .one d
    · intro h
      cases h with
      | one d => exact ⟨d, rfl⟩
      | self _ hone => exact absurd rfl hone
  · rw [Wildcard.ofChar_of_ne hrun hone]
    constructor
    · rintro rfl
      exact .self hrun hone
    · intro h
      cases h with
      | run => exact absurd rfl hrun
      | one => exact absurd rfl hone
      | self => rfl

/-- A pattern covers the texts that its elements match. -/
theorem match_ofString {pattern subject : String} :
    Wildcard.Match (ofString pattern).parts subject.toList ↔ Covers pattern subject := by
  simp only [Wildcard.Match, Covers, ofString, List.forall₂_map_left_iff, admits_ofChar]

end Glob

namespace Evaluator

/-- A test for a pattern that compiles is decided by what the pattern covers. -/
theorem holds_wildcard {ev : Evaluator} (hev : ev.Sound) {ctx : Context} {a : Expr}
    {s pattern : String} (hs : a.operandText ctx = some s) (hp : Glob.compile? pattern ≠ none)
    {name : String} (negated : Bool)
    (hname : Operator.ofName? name = some (.text .wildcard negated)) :
    (ev.holds ctx (.call name [a, .literal (.string pattern)])).1 =
      ((Glob.ofString pattern).isMatch s != negated) := by
  obtain ⟨g, hg⟩ := Option.ne_none_iff_exists'.mp hp
  have hfamily : (Operator.text .wildcard negated).family ≠ .logic := nofun
  rw [holds_operands hname hfamily]
  simp [applyToOperands, hs, textTest, fst_compiled hev, hg, Glob.compile?_eq_some hg]

end Evaluator

/-- A client's text, or a text in the condition, is tested for being covered by the pattern, for
every pattern that compiles and whatever the evaluator was used for before.  The opposite test is
true of the texts that are not covered. -/
theorem Lending.wildcards_cover (history : List Event) {ev : Evaluator}
    (hev : ev ∈ (run history).inUse) (ctx : Context) {a : Expr} {s pattern : String}
    (hs : a.operandText ctx = some s) (hp : Glob.compile? pattern ≠ none) :
    let holds (name : String) := (ev.holds ctx (.call name [a, .literal (.string pattern)])).1
    (holds "str-wcmatch?" = true ↔ Glob.Covers pattern s) ∧
      (holds "str-not-wcmatch?" = true ↔ ¬ Glob.Covers pattern s) := by
  intro holds
  have hsound : ev.Sound := ((bounded_run history).inUse ev hev).sound
  have hcovers : (Glob.ofString pattern).isMatch s = true ↔ Glob.Covers pattern s := by
    rw [Glob.isMatch_iff, Glob.match_ofString]
  constructor
  · rw [← hcovers]
    have hholds : holds "str-wcmatch?" = _ :=
      Evaluator.holds_wildcard hsound hs hp false (by decide)
    rw [hholds, Bool.bne_false]
  · rw [← hcovers, Bool.not_eq_true]
    have hholds : holds "str-not-wcmatch?" = _ :=
      Evaluator.holds_wildcard hsound hs hp true (by decide)
    rw [hholds, Bool.bne_true, Bool.not_eq_true']

/-- A point in a pattern is a point, and two stars in a row with a question mark after them cover
one character or more, the end of a line among them. -/
theorem Lending.wildcards_cover_lines :
    let ctx := Context.empty.set (.client .network) "a.b\n1"
    let holds (name pattern : String) := (Evaluator.fresh.holds ctx
      (.call name [.symbol "NETWORK", .literal (.string pattern)])).1
    Glob.Covers "a.**?" "a.b\n1" ∧ holds "str-wcmatch?" "a.**?" = true ∧
      ¬ Glob.Covers "a+.b*" "a.b\n1" ∧ holds "str-not-wcmatch?" "a+.b*" = true := by
  have hcompiled : Glob.compile? "a.**?" ≠ none ∧ Glob.compile? "a+.b*" ≠ none :=
    ⟨Option.isSome_iff_ne_none.mp (by cbv), Option.isSome_iff_ne_none.mp (by cbv)⟩
  have hnot : (Evaluator.fresh.holds (Context.empty.set (.client .network) "a.b\n1")
      (.call "str-not-wcmatch?" [.symbol "NETWORK", .literal (.string "a+.b*")])).1 = true := by cbv
  have hnetwork : (Expr.symbol "NETWORK").operandText
      (Context.empty.set (.client .network) "a.b\n1") = some "a.b\n1" := by cbv
  intro ctx holds
  have hev : Evaluator.fresh ∈ (run [.create]).inUse := by simp [run, step, empty]
  have hcovers : Glob.Covers "a.**?" "a.b\n1" := by
    refine ⟨[['a'], ['.'], ['b'], ['\n'], ['1']], rfl, ?_⟩
    exact .cons (.self (by decide) (by decide)) (.cons (.self (by decide) (by decide))
      (.cons (.run _) (.cons (.run _) (.cons (.one _) .nil))))
  refine ⟨hcovers, ?_, ?_, hnot⟩
  · exact (wildcards_cover [.create] hev ctx hnetwork hcompiled.1).1.mpr hcovers
  · exact (wildcards_cover [.create] hev ctx hnetwork hcompiled.2).2.mp hnot

end RemoteConfig
