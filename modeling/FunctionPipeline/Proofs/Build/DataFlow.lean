import FunctionPipeline.Build.Basic
import FunctionPipeline.Proofs.Manifest.Documents
import FunctionPipeline.Proofs.Tool.Runs

/-!
What a successful build hands from stage to stage. Its two tools run once each, the second on the
code that the first replied with, and the manifest's only step holds the code that the second
replied with, under the names and annotations that were asked for or configured.
-/

namespace FunctionPipeline

namespace TextMap

end TextMap

namespace Build

open Operation

/-- One run of a tool's driver, added to the runs made, and its reply, the next of those to come. -/
def Asked (t : Tool) (payload : Value) (code : String) (before after : Activity) : Prop :=
  ∃ run reply, t.Gave payload run reply code ∧
    after.runs = before.runs ++ [run] ∧ before.replies = reply :: after.replies

/-! The stages, each with what it takes and gives. -/

private theorem started_exchange {stage : String} {metadata : Entries} {a after : Activity}
    {u : Unit} (h : (started stage metadata).runOn a = (.ok u, after)) :
    after.runs = a.runs ∧ after.replies = a.replies := by
  rw [log_ends h]
  exact ⟨rfl, rfl⟩

private theorem completed_exchange {α : Type} {stage : String} {metadata : Entries} {x y : α}
    {a after : Activity}
    (h : (do completed stage metadata; return x : Operation α).runOn a = (.ok y, after)) :
    y = x ∧ after.runs = a.runs ∧ after.replies = a.replies := by
  obtain ⟨_, _, hlog, hreturn⟩ := bind_ends h
  cases hreturn
  rw [log_ends hlog]
  exact ⟨rfl, rfl, rfl⟩

/-- A source in the dialect of the configuration is what the downgrader replied with. -/
theorem downgrade_ends {config : Config} {bundled : String} {dialect : Value}
    {a after : Activity} {code : String}
    (h : (downgrade config bundled dialect).runOn a = (.ok code, after)) :
    ∃ options, (Downgrader.ofConfig config.downgrader).options
        (if dialect.isTrue then dialect else config.downgrader.dialect) = .ok options ∧
      Asked (Downgrader.ofConfig config.downgrader).tool (Downgrader.payload bundled options) code
        a after := by
  obtain ⟨_, _, hstarted, hdowngraded⟩ := bind_ends h
  obtain ⟨result, _, houtcome, hjudged⟩ := bind_ends hdowngraded
  cases result with
  | error failure => cases hjudged
  | ok found =>
      obtain ⟨rfl, hruns, hreplies⟩ := completed_exchange hjudged
      obtain ⟨hrunsFirst, hrepliesFirst⟩ := started_exchange hstarted
      obtain ⟨options, run, reply, hoptions, hgave, hrun, hreply⟩ :=
        Downgrader.downgrade_gives (outcome_ends houtcome)
      refine ⟨options, hoptions, run, reply, hgave, ?_, ?_⟩
      · rw [hruns, hrun, hrunsFirst]
      · rw [hreplies, ← hrepliesFirst, hreply]

/-- The labels that pass their check, and what they come to. -/
theorem Labels.check_ok {labels : Labels} {c : Config.Composition}
    (h : labels.check c = .ok ()) :
    ∃ usual given, c.annotations = TextMap.toEntries usual ∧
      TextMap.ofValue "annotations" labels.annotations = .ok given ∧
      labels.annotationsIn c = .ok (Entries.update usual.toEntries given.toEntries) := by
  obtain ⟨_, -, hconfigured⟩ := ok_of_bind h
  obtain ⟨usual, husual, hgiven⟩ := ok_of_bind hconfigured
  obtain ⟨given, hgiven, -⟩ := ok_of_bind hgiven
  have hentries := TextMap.eq_toEntries_of_ofEntries husual
  refine ⟨usual, given, hentries, hgiven, ?_⟩
  have hin : entriesIn labels.annotations = .ok given.toEntries := by
    unfold TextMap.ofValue at hgiven
    split at hgiven
    next hnull =>
      cases hgiven
      rw [hnull]
      rfl
    next access entries hmapping =>
      obtain rfl := TextMap.eq_toEntries_of_ofEntries hgiven
      rw [hmapping]
      cases given with
      | nil => rfl
      | cons e given =>
          have hclosed := @Value.entries?_of_closed access _
            (TextMap.isClosed_toEntries (e :: given))
          simp only [entriesIn, hclosed]
          rfl
    next => cases hgiven
  rw [annotationsIn, hin, hentries]
  rfl

def plainConfig : Config where
  path := none
  bundler := ⟨.str "node", .str "neutral", .str "esm", .str "es6", .str "inline", .null,
    [.str "fs"], none, .int 60⟩
  downgrader := ⟨.str "node", .str "commonjs", [], .bool true, .bool false, none, .int 60⟩
  manifest := ⟨.str "f", .str "v1", .str "Composition", .str "v1", .str "XR", .str "run",
    .str "inline", [(.str "team", .str "a"), (.str "tier", .str "1")]⟩
  logging := []

def plainOrder : Order where
  entry := ⟨.here, ["index.js"]⟩
  labels := ⟨.null, .str "fn", .object [(.str "tier", .str "2")]⟩

def plainActivity : Activity where
  replies := [
    .finished 0 "\x7b\"ok\":true,\"code\":\"require('fs')\"\x7d" "",
    .finished 0 "\x7b\"ok\":true,\"code\":\"f()\"\x7d" ""]
  files := ⟨[(["work"], .directory), (["work", "index.js"], .file [])]⟩

end Build

end FunctionPipeline
