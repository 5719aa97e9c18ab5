import RepoGraph.Proofs.Reference.Extractor
import RepoGraph.Proofs.Reference.Pattern

/-!
# Statements on a line of their own

A `Statement` on a line of its own is never missed, whatever stands before and after the line:
`mem_referencesOf_line` says so of the extractors for scripts, of imports, of calls that load a
module, and, where exports are looked for, of exports. What stands before may hold statements that
are cut short, quotes that are not closed or keywords alone.

`mem_findAll_keywordFrom` and `mem_findAll_requireCall` say it of the patterns. In front of a call a
match may also begin on the line itself; it then finds the same specifier, since the line has no
other quotes.
-/

namespace RepoGraph

open RepoGraph.Text
open Extractor (mem_references_of_head mem_specifiers_iff patterns)

/-! ## Patterns -/

section

variable {pre binding specifier : List Char} {q : Char}

/-- A statement with a keyword and `from` is found after whole lines. -/
theorem mem_findAll_keywordFrom (c : Char) (keyword : List Char) (hpre : EndsLine pre)
    (hkeyword : IsPlain (c :: keyword)) (hblank : isBlank c = false) (hf : c ≠ 'f')
    (hbinding : IsPlain binding) (hvisible : ∃ c ∈ binding, isBlank c = false)
    (hspecifier : IsPlain specifier) (hne : specifier ≠ []) (hq : isQuote q = true)
    (rest : List Char) :
    specifier ∈ Pattern.findAll ⟨false, keywordFrom? (c :: keyword)⟩ (pre ++ (c :: keyword ++ ' ' ::
      (binding ++ ([' ', 'f', 'r', 'o', 'm', ' '] ++ q :: (specifier ++ q :: rest))))) := by
  have hquote := (hkeyword c List.mem_cons_self).1
  have hfeed : '\n' ∉ c :: keyword := fun hmem => (hkeyword '\n' hmem).2 rfl
  refine mem_findFrom_append rfl (fun _ _ hsuffix h => h.of_suffix hsuffix)
    (mem_findFrom_of_recognise rfl (by simp)
      (keywordFrom?_plain hbinding hvisible hspecifier hne hq rest)) ?_ pre hpre true
  intro pre found hne' hpre hmatch
  rcases keywordFrom?_append hpre hne' hfeed hblank hquote hf hmatch with
    hgap | ⟨pre₁, pre₂, rfl, hsuffix, hrest⟩
  · -- A gap that goes on in the line leads to the specifier of the line.
    have hfront : IsPlain (c :: keyword ++ ' ' :: binding) :=
      hkeyword.append (List.forall_mem_cons.mpr ⟨by decide, hbinding⟩)
    have hline := gapThenFrom?_plain hfront hspecifier hne hq rest
    rw [List.append_assoc, @List.cons_append _ ' ' binding] at hline
    exact .inl (congrArg Prod.fst (Option.some.inj (hgap.symm.trans hline)))
  · refine .inr ⟨pre₂, hsuffix.trans (List.suffix_append _ pre₁), ?_, hrest⟩
    have hle := hsuffix.length_le
    rw [List.length_append, List.length_cons]
    omega

/-- A call that loads a module is found after whole lines. -/
theorem mem_findAll_requireCall {front : List Char} {c : Char} (hpre : EndsLine pre)
    (hfront : IsPlain (c :: front)) (hspecifier : IsPlain specifier) (hne : specifier ≠ [])
    (hq : isQuote q = true) (rest : List Char) :
    specifier ∈ Pattern.requireCall.findAll (pre ++ (c :: front ++
      (['r', 'e', 'q', 'u', 'i', 'r', 'e', '('] ++ q :: (specifier ++ q :: ')' :: rest)))) := by
  have hcall : requireCall? (['r', 'e', 'q', 'u', 'i', 'r', 'e', '('] ++
      q :: (specifier ++ q :: ')' :: rest)) = some (specifier, rest) := by
    rw [requireCall?, after?_append]
    exact quotedSpecifier?_plain [')'] hspecifier hne hq rest
  refine mem_findFrom_append rfl (fun _ _ hsuffix h => h.of_suffix hsuffix) ?_ ?_ pre hpre true
  · -- On the line itself whatever is found is the specifier.
    refine fun fresh => mem_findFrom_append rfl (fun _ _ hsuffix h => h.of_suffix hsuffix)
      (mem_findFrom_of_recognise rfl (by simp) hcall) ?_ (c :: front) hfront fresh
    intro front found _ hfront hmatch
    have hplain : IsPlain (front ++ ['r', 'e', 'q', 'u', 'i', 'r', 'e', '(']) :=
      hfront.append (by decide)
    have hmatch : requireCall? ((front ++ ['r', 'e', 'q', 'u', 'i', 'r', 'e', '(']) ++
        q :: (specifier ++ q :: ')' :: rest)) = some found := by
      rw [List.append_assoc]
      exact hmatch
    exact .inl (congrArg Prod.fst (requireCall?_plain hplain hspecifier hne hq hmatch))
  · intro pre found hne' hpre hmatch
    have hquote := (hfront c List.mem_cons_self).1
    obtain ⟨pre₁, pre₂, rfl, hsuffix, hrest⟩ := requireCall?_append hpre hne' hquote hmatch
    refine .inr ⟨pre₂, hsuffix.trans (List.suffix_append _ pre₁), ?_, hrest⟩
    have hle := hsuffix.length_le
    simp only [List.length_append, List.length_cons]
    omega

end

/-! ## Lines -/

/-- A statement that refers to another file. -/
structure Statement where
  /-- What the statement does. -/
  kind : ReferenceKind
  /-- What is imported or exported, or the name for what is loaded. -/
  binding : String
  /-- The quote on both sides of the specifier. -/
  quote : Char
  /-- The specifier. -/
  specifier : String

namespace Statement

/-- The specifier between its quotes. -/
def quoted (s : Statement) : String :=
  String.singleton s.quote ++ s.specifier ++ String.singleton s.quote

/-- The statement on one line. -/
def line (s : Statement) : String :=
  match s.kind with
  | .imports => "import " ++ s.binding ++ " from " ++ s.quoted
  | .requires => "const " ++ s.binding ++ " = require(" ++ s.quoted ++ ")"
  | .exports => "export " ++ s.binding ++ " from " ++ s.quoted

/-- The statement can be read from its line. -/
structure IsReadable (s : Statement) : Prop where
  /-- The quote is one. -/
  quote : isQuote s.quote = true
  /-- The specifier is not empty. -/
  specifier_ne : s.specifier ≠ ""
  /-- The specifier holds no quote and no line feed. -/
  specifier : IsPlain s.specifier.toList
  /-- The specifier does not begin with a URL scheme. -/
  scheme : hasUrlScheme s.specifier.toList = false
  /-- The binding holds no quote and no line feed. -/
  binding : IsPlain s.binding.toList
  /-- The binding is not white space alone. -/
  visible : ∃ c ∈ s.binding.toList, isBlank c = false

/-- The specifier with its quotes in front of any text. -/
theorem toList_quoted (s : Statement) :
    s.quoted.toList = s.quote :: (s.specifier.toList ++ [s.quote]) := by
  simp [quoted]

/-- The pattern for statements that do the same. -/
def pattern (s : Statement) : Pattern :=
  match s.kind with
  | .imports => .importFrom
  | .requires => .requireCall
  | .exports => .exportFrom

variable {s : Statement} {before : String}

/-- The pattern for a statement finds it after whole lines. -/
theorem mem_findAll_line (hs : s.IsReadable) (hbefore : EndsLine before.toList) (after : String) :
    s.specifier.toList ∈ s.pattern.findAll (before ++ s.line ++ after).toList := by
  have hne : s.specifier.toList ≠ [] := by simpa using hs.specifier_ne
  cases hkind : s.kind with
  | imports =>
    have hfound := mem_findAll_keywordFrom 'i' "mport".toList hbefore (by decide) (by decide)
      (by decide) hs.binding hs.visible hs.specifier hne hs.quote after.toList
    simpa [line, pattern, hkind, toList_quoted, Pattern.importFrom] using hfound
  | requires =>
    have hfront : IsPlain ('c' :: ("onst ".toList ++ s.binding.toList ++ " = ".toList)) :=
      IsPlain.append (s := "const ".toList ++ s.binding.toList) (.append (by decide) hs.binding)
        (by decide)
    have hfound := mem_findAll_requireCall hbefore hfront hs.specifier hne hs.quote after.toList
    simpa [line, pattern, hkind, toList_quoted] using hfound
  | exports =>
    have hfound := mem_findAll_keywordFrom 'e' "xport".toList hbefore (by decide) (by decide)
      (by decide) hs.binding hs.visible hs.specifier hne hs.quote after.toList
    simpa [line, pattern, hkind, toList_quoted, Pattern.exportFrom] using hfound

/-- The statement is among the references of every file that holds it on a line of its own and is
read as a script: an import as what it is, and of a call that loads a module, and of an export in a
typed script, the specifier, since an earlier statement may have fixed the kind. -/
theorem mem_referencesOf_line (path before after : String) (s : Statement) (hs : s.IsReadable)
    (hbefore : EndsLine before.toList)
    (hpath : Registry.standard.extractorFor path = .script ∨
      Registry.standard.extractorFor path = .typedScript) :
    (s.kind = .imports →
      ⟨s.specifier, .imports⟩ ∈ referencesOf path (before ++ s.line ++ after)) ∧
    (s.kind = .requires →
      s.specifier ∈ (referencesOf path (before ++ s.line ++ after)).map (·.specifier)) ∧
    (s.kind = .exports → Registry.standard.extractorFor path = .typedScript →
      s.specifier ∈ (referencesOf path (before ++ s.line ++ after)).map (·.specifier)) := by
  have hfound := mem_findAll_line hs hbefore after
  unfold referencesOf Registry.references
  refine ⟨fun hkind => ?imports, fun hkind => ?requires, fun hkind htyped => ?exports⟩
  case imports =>
    rw [pattern, hkind] at hfound
    rcases hpath with hpath | hpath
    · exact mem_references_of_head (by rw [hpath]; rfl) hfound hs.scheme
    · exact mem_references_of_head (by rw [hpath]; rfl) hfound hs.scheme
  case requires =>
    rw [pattern, hkind] at hfound
    refine mem_specifiers_iff.mpr ⟨hs.scheme, (.requires, .requireCall), ?_, hfound⟩
    rcases hpath with hpath | hpath
    · simp [hpath, patterns]
    · simp [hpath, patterns]
  case exports =>
    rw [pattern, hkind] at hfound
    exact mem_specifiers_iff.mpr
      ⟨hs.scheme, (.exports, .exportFrom), by simp [htyped, patterns], hfound⟩

/-- An import and an export after an import and an export that are cut short and a keyword alone. -/
theorem mem_referencesOf_line_after_halves :
    let before := "import a,\nexport * from './half\nimport " ++ "\n"
    let after := "\nfrom './c'"
    let s (kind : ReferenceKind) : Statement := ⟨kind, "* as b", '"', "./b"⟩
    ((s .imports).IsReadable ∧ (s .exports).IsReadable ∧ EndsLine before.toList ∧
      Registry.standard.extractorFor "src/a.ts" = .typedScript) ∧
    ⟨"./b", .imports⟩ ∈ referencesOf "src/a.ts" (before ++ (s .imports).line ++ after) ∧
    "./b" ∈ (referencesOf "src/a.ts" (before ++ (s .exports).line ++ after)).map (·.specifier) := by
  intro before after s
  have hs (kind : ReferenceKind) : (s kind).IsReadable :=
    ⟨rfl, (by decide : "./b" ≠ ""), (by decide : IsPlain "./b".toList),
      (by decide : hasUrlScheme "./b".toList = false), (by decide : IsPlain "* as b".toList),
      ⟨'*', (by decide : '*' ∈ "* as b".toList), by decide⟩⟩
  have hbefore : EndsLine before.toList := .inr ⟨_, String.toList_append⟩
  have hpath : Registry.standard.extractorFor "src/a.ts" = .typedScript := rfl
  refine ⟨⟨hs _, hs _, hbefore, hpath⟩, ?_, ?_⟩
  · exact (mem_referencesOf_line _ _ after _ (hs .imports) hbefore (.inr hpath)).1 rfl
  · exact (mem_referencesOf_line _ _ after _ (hs .exports) hbefore (.inr hpath)).2.2 rfl hpath

end Statement

end RepoGraph
