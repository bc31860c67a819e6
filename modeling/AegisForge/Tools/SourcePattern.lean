import AegisForge.Core.CanonicalJson
import AegisForge.Core.Sha1
import AegisForge.Core.Sha256
import AegisForge.Tools.SourceLexing

/-!
# Patterns in historical sources

The checker looks for one definition of a function in a masked source and compares the
two branches of its body with patterns.  It does not splice lines, so that a line that
continues a comment can be taken for code.
-/

namespace AegisForge.Tools.SourcePattern

open AegisForge.Core AegisForge.Core.CppLexing AegisForge.Core.TextSearch
open AegisForge.Tools.SourceMask hiding State Step

/-! ## Patterns -/

/-- `r"\bcl_ulong4\s+Dispatcher\s*::\s*Device\s*::\s*createSeed\s*\(\s*\)\s*\{"`. -/
def definition : List Piece :=
  .boundary :: word "cl_ulong4" ++ .someSpaces ::
    spaced ["Dispatcher", "::", "Device", "::", "createSeed", "(", ")"] ++ [.spaces, .exactly '{']

/-- `r"std\s*::\s*random_device\s+rd\s*;"`. -/
def randomDevice : List Piece :=
  spaced ["std", "::", "random_device"] ++ .someSpaces :: spaced ["rd", ";"]

/-- `r"\brd\s*\(\s*\)"`. -/
def randomDeviceCall : List Piece := .boundary :: spaced ["rd", "(", ")"]

/-- `r"std\s*::\s*mt19937_64\s+eng\s*\(\s*rd\s*\(\s*\)\s*\)"`. -/
def engine : List Piece :=
  spaced ["std", "::", "mt19937_64"] ++ .someSpaces :: spaced ["eng", "(", "rd", "(", ")", ")"]

/-- `r"\bdistr\s*\(\s*eng\s*\)"`. -/
def distribution : List Piece := .boundary :: spaced ["distr", "(", "eng", ")"]

/-- `rf"r\s*\.\s*s\s*\[\s*{word_index}\s*\]\s*=\s*distr\s*\(\s*eng\s*\)\s*;"`. -/
def assignment (wordIndex : ℕ) : List Piece :=
  spaced ["r", ".", "s", "[", toString wordIndex, "]", "=", "distr", "(", "eng", ")", ";"]

/-- `rf"r\s*\.\s*s\s*\[\s*{word_index}\s*\]\s*=\s*1\s*;"`. -/
def fixedAssignment (wordIndex : ℕ) : List Piece :=
  spaced ["r", ".", "s", "[", toString wordIndex, "]", "=", "1", ";"]

/-! ## The inspection -/

variable (isalnum : Char → Bool)

/-- `len(re.findall(pattern, text))`. -/
def count (pattern : List Piece) (text : List Char) : ℕ :=
  (findAll (isWord isalnum) pattern text).length

/-- `text.find(word, start)`. -/
def findFrom? (word : String) (text : List Char) (start : ℕ) : Option ℕ :=
  (find? word.toList (text.drop start)).map (· + start)

/-- `text[start:end]`. -/
def slice (text : List Char) (first last : ℕ) : List Char := (text.drop first).take (last - first)

/-- What is wrong with the branches of a body. -/
def branchErrors (debugBranch productionBranch : List Char) : List String :=
  (if count isalnum randomDevice productionBranch ≠ 1 then
    ["expected_single_random_device_declaration"] else []) ++
  (if count isalnum randomDeviceCall productionBranch ≠ 1 then
    ["expected_single_random_device_call"] else []) ++
  (if count isalnum engine productionBranch ≠ 1 then
    ["expected_single_mt19937_64_initialization_from_rd"] else []) ++
  (if count isalnum distribution productionBranch ≠ 4 then
    ["expected_four_distribution_calls"] else []) ++
  ((List.range 4).filterMap fun wordIndex =>
    if count isalnum (assignment wordIndex) productionBranch ≠ 1 then
      some ("expected_one_distribution_assignment_for_word_" ++ toString wordIndex) else none) ++
  (if find? "std::random_device rd;".toList debugBranch ≠ none ∨
      find? "std::mt19937_64".toList debugBranch ≠ none then
    ["debug_branch_contains_unexpected_random_engine"] else []) ++
  ((List.range 4).filterMap fun wordIndex =>
    if count isalnum (fixedAssignment wordIndex) debugBranch ≠ 1 then
      some ("debug_fixed_seed_word_" ++ toString wordIndex ++ "_not_recognized") else none)

/-- Inspects a masked source: one error that ends the inspection, or the errors of the
branches with the span of the body. -/
def inspectMasked (source : List Char) : Except String (List String × ℕ × ℕ) :=
  match findAll (isWord isalnum) definition source with
  | [] => .error "createSeed_function_missing"
  | [(_, finish)] =>
      match findFunctionBody source (finish - 1) with
      | (none, _) => .error "function_body_missing"
      | (some _, none) => .error "function_body_unbalanced"
      | (some braceStart, some bodyEnd) =>
          let body := slice source braceStart bodyEnd
          let branches := do
            let debugPos ← findFrom? "#ifdef PROFANITY_DEBUG" body 0
            let elsePos ← findFrom? "#else" body (debugPos + 1)
            let endifPos ← findFrom? "#endif" body (elsePos + 1)
            return (slice body debugPos elsePos, slice body elsePos endifPos)
          match branches with
          | none => .error "debug_branch_structure_ambiguous"
          | some (debugBranch, productionBranch) =>
              .ok (branchErrors isalnum debugBranch productionBranch, braceStart, bodyEnd)
  | _ => .error "createSeed_definition_ambiguous"

structure Pin where
  commit : String
  gitBlobSha1 : String
  deriving DecidableEq

def pinnedRevisions : List (String × Pin) :=
  [("pre-disclosure",
    ⟨"0b54ffc86aafbb206675b4bfecb2ea09ac7a79f6", "c9226fc02a52633a84664cbf3aaf2b4af8a59b25"⟩),
   ("post-disclosure",
    ⟨"186b9b27ab3e24a1899f648adcabcbf0e5f3131e", "884ced30ed6e55794ea5bda0451b52e81ddec1dd"⟩)]

structure Report where
  sourceRevisionRole : String
  expectedUpstreamCommit : String
  sourceSha256 : String
  gitBlobSha1 : String
  functionBodySha256 : Option String
  pinnedSourceBlobMatches : Bool
  conclusion : String
  errors : List String
  deriving DecidableEq

/-- `_git_blob_sha1`. -/
def gitBlobSha1 (sourceBytes : Octets) : String :=
  Sha1.sha1 (utf8 ("blob ".toList ++ Nat.toDigits 10 sourceBytes.length ++ [Char.ofNat 0]) ++
    sourceBytes)

def result (revision : String) (pin : Pin) (source : List Char) (conclusion : String)
    (errors : List String) (functionBodySha256 : Option String) : Report where
  sourceRevisionRole := revision
  expectedUpstreamCommit := pin.commit
  sourceSha256 := (Sha256.sha256 (utf8 source)).text
  gitBlobSha1 := gitBlobSha1 (utf8 source)
  functionBodySha256 := functionBodySha256
  pinnedSourceBlobMatches := gitBlobSha1 (utf8 source) = pin.gitBlobSha1
  conclusion := conclusion
  errors := errors

/-- The inspection of a source; it raises for a revision that is not pinned. -/
def inspectSource (source : List Char) (revision : String) : Except String Report :=
  match pinnedRevisions.lookup revision with
  | none => .error "unsupported_pinned_revision"
  | some pin =>
      match maskCommentsAndLiterals isalnum source with
      | (_, some error) => .ok (result revision pin source "INCONCLUSIVE" [error] none)
      | (analysisSource, none) =>
          match inspectMasked isalnum analysisSource with
          | .error error => .ok (result revision pin source "INCONCLUSIVE" [error] none)
          | .ok (errors, braceStart, bodyEnd) =>
              .ok (result revision pin source
                (if errors = [] then "SOURCE_PATTERN_MATCHED" else "INCONCLUSIVE") errors
                (some (Sha256.sha256 (utf8 (slice source braceStart bodyEnd))).text))

/-- `result["conclusion"]`, if the inspection does not raise. -/
def conclusion? (answer : Except String Report) : Option String :=
  answer.toOption.map Report.conclusion

@[simp]
theorem conclusion?_error (error : String) : conclusion? (.error error) = none := rfl

@[simp]
theorem conclusion?_result (revision : String) (pin : Pin) (source : List Char)
    (conclusion : String) (errors : List String) (functionBodySha256 : Option String) :
    conclusion? (.ok (result revision pin source conclusion errors functionBodySha256)) =
      some conclusion := rfl

/-- The inspection finds the pattern. -/
def Matches (revision : String) (source : List Char) : Prop :=
  conclusion? (inspectSource isalnum source revision) = some "SOURCE_PATTERN_MATCHED"

instance (revision : String) (source : List Char) : Decidable (Matches isalnum revision source) :=
  inferInstanceAs (Decidable (_ = _))

/-! ## Comments and literals -/

variable {isalnum} {revision : String} {source other masked : List Char}

/-- Whether a source matches depends on its masked text only. -/
theorem matches_iff :
    Matches isalnum revision source ↔
      (pinnedRevisions.lookup revision).isSome = true ∧
        ∃ masked span, maskCommentsAndLiterals isalnum source = (masked, none) ∧
          inspectMasked isalnum masked = .ok ([], span) := by
  rw [Matches, inspectSource]
  cases hpin : pinnedRevisions.lookup revision with
  | none => exact iff_of_false (by simp) fun h => absurd h.1 (by simp)
  | some pin =>
      rw [Option.isSome_some, eq_self_iff_true, true_and]
      cases hmask : maskCommentsAndLiterals isalnum source with
      | mk masked error =>
          cases error with
          | some error =>
              dsimp only
              rw [conclusion?_result]
              refine iff_of_false (by simp) ?_
              rintro ⟨masked, span, hclean, -⟩
              cases hclean
          | none =>
              have hcases : (∃ text span, (masked, (none : Option String)) = (text, none) ∧
                  inspectMasked isalnum text = .ok ([], span)) ↔
                  ∃ span, inspectMasked isalnum masked = .ok ([], span) := by simp
              rw [hcases]
              dsimp only
              cases inspectMasked isalnum masked with
              | error error =>
                  rw [conclusion?_result]
                  exact iff_of_false (by simp) (by simp)
              | ok found =>
                  rw [conclusion?_result]
                  obtain ⟨errors, span⟩ := found
                  by_cases herrors : errors = []
                  · simp [herrors]
                  · simp [herrors]

/-- A matched source still matches where what the language has in comments and literals is
overwritten. -/
def CodeMatches (isalnum : Char → Bool) (revision : String) (source : List Char) : Prop :=
  Matches isalnum revision source →
    Matches isalnum revision (overwrite (isWord isalnum) true source)

/-- A match is one of code where splices change nothing about which characters stand in
comments and literals. -/
theorem codeMatches_of_overwrite_eq (isalnum : Char → Bool) (revision : String)
    (source : List Char)
    (hsplices : overwrite (isWord isalnum) true source =
      overwrite (isWord isalnum) false source) : CodeMatches isalnum revision source := by
  intro hmatches
  obtain ⟨hpinned, masked, span, hmask, hinspected⟩ := matches_iff.mp hmatches
  rw [hsplices, ← maskCommentsAndLiterals_eq_overwrite hmask]
  have hagain : maskCommentsAndLiterals isalnum masked = (masked, none) :=
    maskFrom_of_isPlain (isPlain_maskCommentsAndLiterals hmask)
  exact matches_iff.mpr ⟨hpinned, masked, span, hagain, hinspected⟩

namespace Sample

/-- A definition with the pattern up to its last assignment. -/
def opening : List Char :=
  ["cl_ulong4 ", "Dispatcher::", "Device::", "createSeed()", "\x7b\n#ifdef ", "PROFANITY_",
    "DEBUG\n", "r.s[0]=1;", "r.s[1]=1;", "r.s[2]=1;", "r.s[3]=1;", "\n#else\n", "std::random", "_device rd;",
    "std::mt", "19937_64 ", "eng(rd());\n", "r.s[0]=", "distr(eng);", "r.s[1]=", "distr(eng);",
    "r.s[2]=", "distr(eng);\n"].flatMap String.toList

/-- The last assignment. -/
def closing : List Char := ["r.s[3]=", "distr(eng);", "\n#endif\n\x7d\n"].flatMap String.toList

/-- The last assignment continues a comment. -/
def continued : List Char := opening ++ ['/', '/', '\\', '\n'] ++ closing

theorem continued_not_codeMatches : ¬CodeMatches Char.isAlphanum "pre-disclosure" continued := by
  have hmatches : Matches Char.isAlphanum "pre-disclosure" continued := by decide +kernel
  have hcode : ¬Matches Char.isAlphanum "pre-disclosure"
      (overwrite (isWord Char.isAlphanum) true continued) := by decide +kernel
  exact fun hclaimed => hcode (hclaimed hmatches)

/-- The last assignment follows a comment. -/
def followed : List Char := opening ++ ['/', '/', '\n'] ++ closing

theorem followed_matches :
    Matches Char.isAlphanum "pre-disclosure" followed ∧
      Matches Char.isAlphanum "pre-disclosure"
        (overwrite (isWord Char.isAlphanum) true followed) := by
  have hmatches : Matches Char.isAlphanum "pre-disclosure" followed := by decide +kernel
  exact ⟨hmatches, codeMatches_of_overwrite_eq Char.isAlphanum "pre-disclosure" followed
    (by decide +kernel) hmatches⟩

end Sample

end AegisForge.Tools.SourcePattern
