/-
# FleetSearch.Proofs.Command.BrokenConfig -- a broken configuration file costs one line

Nothing of a configuration file counts unless all of it can be read. A run that finds a broken one
goes by the default configuration, as it does without a file, and differs from the run without a
file in one line of standard error (`broken_config_only_warns`). It is one line whatever the file
holds, since what the file says is quoted there (`Config.newline_not_mem_line`).
-/

import FleetSearch.Proofs.Command.Opening
import FleetSearch.Proofs.Json.HaltLine

namespace FleetSearch

open Json

/-! ## Why a configuration file is refused -/

namespace Config

theorem record_isPlain : record.IsPlain where
  title := by decide
  names := by decide
  reads := by
    have htext : ∀ s, HaltsPlainly (readText "path string" s) := haltsPlainly_readText (by decide)
    have hpath := haltsPlainly_readOptional htext
    have hlimit : ∀ s, HaltsPlainly (readLimit s) := by
      intro s
      exact (haltsPlainly_readNat (by decide) _ s).bind fun _ => haltsPlainly_ok _
    simp only [record, List.forall_mem_cons, List.not_mem_nil, false_implies, implies_true,
      and_true]
    exact ⟨Field.haltsPlainly_of hpath _ _ _, Field.haltsPlainly_of haltsPlainly_readBool _ _ _,
      Field.haltsPlainly_of hlimit _ _ _⟩
  builds := by
    intro draft name h
    cases h

/-- **Why a configuration file is refused** is told in one line. -/
theorem newline_not_mem_line {file : Option ByteArray} {failure : Failure}
    (h : load file = .error failure) : '\n' ∉ failure.line.toList := by
  unfold load at h
  split at h
  · cases h
  · split at h
    · next fault htext =>
      cases h
      obtain ⟨-, rfl⟩ := textOf_eq_error_iff.1 htext
      decide +kernel
    · split at h
      · next fault hfault =>
        cases h
        have hmessage := record.newline_not_mem_ofText record_isPlain hfault
        exact newline_not_mem_append (by decide +kernel) hmessage
      · cases h

end Config

namespace Command

/-! ## Runs with and without the file -/

/-- **A broken configuration file only warns.** A search or a listing of facets that finds one has
the exit code and the standard output of the run without a file. Its standard error is a line that
says why the file is ignored, and then that of the run without a file. -/
theorem broken_config_only_warns {args : List String} {request : Request} {named : Option String}
    (h : Asks args request named) {bytes : ByteArray} {failure : Failure}
    (hbroken : Config.load (some bytes) = .error failure) (w : Surroundings) :
    ∃ o plain, perform { w with config := some bytes } args = .ok o ∧
      perform { w with config := none } args = .ok plain ∧
      o.code = plain.code ∧ o.stdout = plain.stdout ∧
      o.stderr = warningLine failure ++ "\n" ++ plain.stderr ∧
      '\n' ∉ (warningLine failure).toList := by
  obtain ⟨text, hrun⟩ := perform_of_asks h
  obtain ⟨hdefault, hwarning⟩ := effective_of_broken (w := { w with config := some bytes }) hbroken
  obtain ⟨hmissing, hsilent⟩ := effective_of_loaded (w := { w with config := none }) rfl
  refine ⟨_, _, hrun { w with config := some bytes }, hrun { w with config := none }, ?_⟩
  -- Both runs open the same catalog and write the same text, as they go by the default settings.
  rw [hdefault, hmissing, hwarning, hsilent]
  refine ⟨rfl, rfl, ?_, ?_⟩
  · unfold Outcome.warned
    rw [String.empty_append]
    rfl
  · exact newline_not_mem_append (by decide +kernel) (Config.newline_not_mem_line hbroken)

/-- A configuration file with a path and a limit, and a line break for the choice of colors. -/
def brokenFile : ByteArray :=
  "\x7b\"catalog_path\":\"fleet.json\",\"limit\":1,\"color\":\"\\n\"\x7d".toUTF8

/-- The line break is quoted in the warning, and neither the path nor the limit counts. -/
theorem broken_config_only_warns_line_break :
    read ["kaga"] = .ok (.search { query := "kaga" }) ∧
      Config.load (some brokenFile) = .error ⟨some "Failed to parse config file",
        .json ⟨.wrongType (.string "\n") "a boolean", some ⟨1, 51⟩⟩⟩ ∧
      ∃ o plain,
        perform { config := some brokenFile, configPath := "", fileAt := fun _ => .error .missing }
          ["kaga"] = .ok o ∧
        perform { config := none, configPath := "", fileAt := fun _ => .error .missing }
          ["kaga"] = .ok plain ∧
        o.code = plain.code ∧ o.stdout = plain.stdout ∧
        o.stderr = "WARN shipsearch: ignoring config: Failed to parse config file: " ++
          "invalid type: string \"\\n\", expected a boolean at line 1 column 51\n" ++
          plain.stderr := by
  have hread : read ["kaga"] = .ok (.search { query := "kaga" }) := by rfl
  have hbroken : Config.load (some brokenFile) = .error ⟨some "Failed to parse config file",
      .json ⟨.wrongType (.string "\n") "a boolean", some ⟨1, 51⟩⟩⟩ := by
    cbv
  have hline : warningLine ⟨some "Failed to parse config file",
      .json ⟨.wrongType (.string "\n") "a boolean", some ⟨1, 51⟩⟩⟩ ++ "\n" =
      "WARN shipsearch: ignoring config: Failed to parse config file: " ++
        "invalid type: string \"\\n\", expected a boolean at line 1 column 51\n" := by
    decide +kernel
  obtain ⟨o, plain, ho, hplain, hcode, hstdout, hstderr, -⟩ :=
    broken_config_only_warns (.search hread) hbroken
      { configPath := "", fileAt := fun _ => .error .missing }
  rw [hline] at hstderr
  exact ⟨hread, hbroken, o, plain, ho, hplain, hcode, hstdout, hstderr⟩

end Command

end FleetSearch
