import FunctionPipeline.Proofs.Document.Equivalence
import FunctionPipeline.Proofs.Document.Identity
import FunctionPipeline.Tool.Downgrader

/-!
Plugins of a downgrader. Those of the dialect come first, and each extra one stands where it first
appears. An extra is compared with the list as it has grown by then. That is no less than comparing
it with everything before it, kept or not, because equality is an equivalence: what an extra was
dropped for is still in the list.
-/

namespace FunctionPipeline

namespace Downgrader

/-- The extras that equal nothing before them, neither a plugin nor an extra, kept or not. -/
def firstsAfter (before : List Value) : List Value → List Value
  | [] => []
  | p :: rest =>
      if before.any fun q => q.equals p then firstsAfter (before ++ [p]) rest
      else p :: firstsAfter (before ++ [p]) rest

def HasEqual (plugins : List Value) (p : Value) : Prop := ∃ q ∈ plugins, q.equals p = true

/-- Values that are not equal, whichever way they are compared. -/
def Differ (p q : Value) : Prop := p.equals q = false ∧ q.equals p = false

theorem any_equals_iff {plugins : List Value} {p : Value} :
    (plugins.any fun q => q.equals p) = true ↔ HasEqual plugins p := by
  simp [HasEqual]

theorem hasEqual_append_singleton {plugins : List Value} {p q : Value} :
    HasEqual (plugins ++ [p]) q ↔ HasEqual plugins q ∨ p.equals q = true := by
  simp only [HasEqual, List.mem_append, List.mem_singleton, or_and_right, exists_or,
    exists_eq_left]

variable {plugins extras : List Value} {p : Value}

theorem withPlugins_cons_of_hasEqual (h : HasEqual plugins p) (rest : List Value) :
    withPlugins plugins (p :: rest) = withPlugins plugins rest := by
  rw [withPlugins, if_pos (any_equals_iff.mpr h)]

theorem withPlugins_cons_of_new (h : ¬HasEqual plugins p) (rest : List Value) :
    withPlugins plugins (p :: rest) = withPlugins (plugins ++ [p]) rest := by
  rw [withPlugins, if_neg (mt any_equals_iff.mp h)]

/-- The list that has grown by then has the same values, up to equality, as all that came before;
so a comparison with either drops the same extras. -/
theorem withPlugins_eq (hplugins : ∀ p ∈ plugins, p.IsPossible)
    (hextras : ∀ p ∈ extras, p.IsPossible) {before : List Value}
    (hsame : ∀ p : Value, p.IsPossible → (HasEqual before p ↔ HasEqual plugins p)) :
    withPlugins plugins extras = plugins ++ firstsAfter before extras := by
  induction extras generalizing plugins before with
  | nil => simp [withPlugins, firstsAfter]
  | cons p rest ih =>
      obtain ⟨hp, hrest⟩ := List.forall_mem_cons.mp hextras
      have hdropped := hsame p hp
      by_cases h : HasEqual plugins p
      · rw [withPlugins_cons_of_hasEqual h, firstsAfter,
          if_pos (any_equals_iff.mpr (hdropped.mpr h))]
        refine ih hplugins hrest fun r hr => ?_
        rw [hasEqual_append_singleton, hsame r hr, or_iff_left_iff_imp]
        intro hequal
        -- the plugin that the extra was dropped for equals whatever the extra equals
        obtain ⟨q, hq, hqp⟩ := h
        exact ⟨q, hq, Value.equals_trans (hplugins q hq) hp hr hqp hequal⟩
      · have hgrown : ∀ q ∈ plugins ++ [p], q.IsPossible := by
          simpa [or_imp, forall_and] using ⟨hplugins, hp⟩
        have hsame' : ∀ r : Value, r.IsPossible →
            (HasEqual (before ++ [p]) r ↔ HasEqual (plugins ++ [p]) r) := by
          intro r hr
          rw [hasEqual_append_singleton, hasEqual_append_singleton, hsame r hr]
        rw [withPlugins_cons_of_new h, firstsAfter,
          if_neg (mt any_equals_iff.mp (mt hdropped.mp h)), ih hgrown hrest hsame']
        simp

theorem subset_withPlugins (plugins extras : List Value) :
    plugins ⊆ withPlugins plugins extras := by
  induction extras generalizing plugins with
  | nil => simp [withPlugins]
  | cons p rest ih =>
      rw [withPlugins]
      split
      · exact ih plugins
      · exact fun q hq => ih (plugins ++ [p]) (List.mem_append_left _ hq)

/-- No extra is lost, up to equality. -/
theorem hasEqual_withPlugins (hextras : ∀ p ∈ extras, p.IsPossible) :
    ∀ p ∈ extras, HasEqual (withPlugins plugins extras) p := by
  induction extras generalizing plugins with
  | nil => simp
  | cons p rest ih =>
      obtain ⟨hp, hrest⟩ := List.forall_mem_cons.mp hextras
      by_cases h : HasEqual plugins p
      · rw [withPlugins_cons_of_hasEqual h]
        obtain ⟨q, hq, hqp⟩ := h
        exact List.forall_mem_cons.mpr ⟨⟨q, subset_withPlugins _ _ hq, hqp⟩, ih hrest⟩
      · rw [withPlugins_cons_of_new h]
        have hmem : p ∈ withPlugins (plugins ++ [p]) rest := subset_withPlugins _ _ (by simp)
        exact List.forall_mem_cons.mpr ⟨⟨p, hmem, hp.equals_self⟩, ih hrest⟩

/-- An extra that is not there differs from all that are. -/
theorem differ_of_new (hplugins : ∀ p ∈ plugins, p.IsPossible) (hp : p.IsPossible)
    (h : ¬HasEqual plugins p) : ∀ q ∈ plugins, Differ q p := by
  intro q hq
  have hqp : q.equals p ≠ true := fun hequal => h ⟨q, hq, hequal⟩
  have hpq : p.equals q ≠ true := fun hequal => hqp (Value.equals_symm hp (hplugins q hq) hequal)
  exact ⟨Bool.eq_false_iff.mpr hqp, Bool.eq_false_iff.mpr hpq⟩

/-- No two plugins of the list are equal. -/
theorem pairwise_withPlugins (hplugins : ∀ p ∈ plugins, p.IsPossible)
    (hextras : ∀ p ∈ extras, p.IsPossible) (h : plugins.Pairwise Differ) :
    (withPlugins plugins extras).Pairwise Differ := by
  induction extras generalizing plugins with
  | nil => simpa [withPlugins] using h
  | cons p rest ih =>
      obtain ⟨hp, hrest⟩ := List.forall_mem_cons.mp hextras
      by_cases hold : HasEqual plugins p
      · rw [withPlugins_cons_of_hasEqual hold]
        exact ih hplugins hrest h
      · rw [withPlugins_cons_of_new hold]
        refine ih ?_ hrest ?_
        · simpa [or_imp, forall_and] using ⟨hplugins, hp⟩
        · rw [List.pairwise_append]
          simpa [h] using differ_of_new hplugins hp hold

/-- Extras that differ from each other and from the plugins are all kept. -/
theorem withPlugins_of_pairwise (h : (plugins ++ extras).Pairwise Differ) :
    withPlugins plugins extras = plugins ++ extras := by
  induction extras generalizing plugins with
  | nil => simp [withPlugins]
  | cons p rest ih =>
      have hnew : ¬HasEqual plugins p := by
        rintro ⟨q, hq, hequal⟩
        have hdiffer := (List.pairwise_append.mp h).2.2 q hq p (by simp)
        rw [hdiffer.1] at hequal
        cases hequal
      have hsplit : plugins ++ p :: rest = plugins ++ [p] ++ rest := by simp
      rw [withPlugins_cons_of_new hnew, hsplit]
      exact ih (hsplit ▸ h)

/-- A known dialect is found by its name. Its plugins are values, no two of them equal. -/
theorem of_known {name : String} {dialect : Dialect} (h : (name, dialect) ∈ Dialect.known) :
    Dialect.ofName (.str name) = .ok dialect ∧ (∀ p ∈ dialect.plugins, p.IsPossible) ∧
      dialect.plugins.Pairwise Differ := by
  have hmodules : Dialect.modulesPlugin.IsPossible := by decide
  simp only [Dialect.known, List.mem_cons, Prod.mk.injEq, List.not_mem_nil, or_false] at h
  rcases h with ⟨rfl, rfl⟩ | ⟨rfl, rfl⟩
  all_goals
    refine ⟨?_, by simpa using hmodules, List.pairwise_singleton _ _⟩
    simp [Dialect.ofName, Dialect.known, Value.unhashable?, Value.equals, Value.scalarEquals]

def optionEntries (d : Downgrader) (plugins presets : List Value) : Entries :=
  [(.str "plugins", .list plugins), (.str "presets", .list presets), (.str "ast", .bool false),
    (.str "babelrc", .bool false), (.str "configFile", .bool false),
    (.str "sourceMaps", .str "inline"), (.str "inputSourceMap", .bool true),
    (.str "compact", d.compact), (.str "retainLines", d.retainLines),
    (.str "highlightCode", .bool false)]

theorem options_of_known (d : Downgrader) {name : String} {dialect : Dialect}
    (h : (name, dialect) ∈ Dialect.known) :
    d.options (.str name) = .ok (.object
      (d.optionEntries (withPlugins dialect.plugins d.plugins) dialect.presets)) := by
  rw [options, (of_known h).1]
  rfl

/-- The plugins for a known dialect are those of the dialect and after them every extra that equals
nothing before it. No two are equal, no extra is left out up to equality, and with the kept extras
as its only ones the downgrader asks for the same. -/
theorem plugins_merged_once (d : Downgrader) {name : String} {dialect : Dialect}
    (hknown : (name, dialect) ∈ Dialect.known) (hextras : ∀ p ∈ d.plugins, p.IsPossible) :
    ∃ options kept, d.options (.str name) = .ok (.object options) ∧
      kept = firstsAfter dialect.plugins d.plugins ∧
      Entries.field? options "plugins" = some (.list (dialect.plugins ++ kept)) ∧
      (dialect.plugins ++ kept).Pairwise Differ ∧
      (∀ p ∈ d.plugins, HasEqual (dialect.plugins ++ kept) p) ∧
      { d with plugins := kept }.options (.str name) = .ok (.object options) := by
  obtain ⟨-, hplugins, hdiffer⟩ := of_known hknown
  let kept := firstsAfter dialect.plugins d.plugins
  have hmerged : withPlugins dialect.plugins d.plugins = dialect.plugins ++ kept :=
    withPlugins_eq hplugins hextras fun _ _ => Iff.rfl
  have hpairwise : (dialect.plugins ++ kept).Pairwise Differ :=
    hmerged ▸ pairwise_withPlugins hplugins hextras hdiffer
  have hfound : ∀ p ∈ d.plugins, HasEqual (dialect.plugins ++ kept) p :=
    hmerged ▸ hasEqual_withPlugins hextras
  refine ⟨d.optionEntries (dialect.plugins ++ kept) dialect.presets, kept, ?_, rfl, ?_, hpairwise,
    hfound, ?_⟩
  · rw [options_of_known d hknown, hmerged]
  · exact Entries.field?_cons ..
  · rw [options_of_known _ hknown, withPlugins_of_pairwise hpairwise]
    rfl

/-- A downgrader with extras that are equal to each other or to the plugin of the dialect: a number
and a truth value of one place, and mappings with their keys in another order. -/
def repeating : Downgrader :=
  ⟨⟨.str "node", driver, .int 120, none⟩,
    [.int 1, .bool true, Dialect.modulesPlugin,
      .list [.object [(.str "a", .int 1), (.str "b", .null)]],
      .list [.object [(.str "b", .null), (.str "a", .bool true)]], .int 1],
    .bool true, .bool false⟩

theorem plugins_merged_once_repeating :
    ("commonjs", ⟨[Dialect.modulesPlugin], []⟩) ∈ Dialect.known ∧
      (∀ p ∈ repeating.plugins, p.IsPossible) ∧
      ∃ options, repeating.options (.str "commonjs") = .ok (.object options) ∧
        Entries.field? options "plugins" = some (.list [Dialect.modulesPlugin, .int 1,
          .list [.object [(.str "a", .int 1), (.str "b", .null)]]]) ∧
        { repeating with plugins := [.int 1,
          .list [.object [(.str "a", .int 1), (.str "b", .null)]]] }.options (.str "commonjs") =
            .ok (.object options) := by
  have hknown : ("commonjs", (⟨[Dialect.modulesPlugin], []⟩ : Dialect)) ∈ Dialect.known := by
    simp [Dialect.known]
  have hextras : ∀ p ∈ repeating.plugins, p.IsPossible := by decide +kernel
  obtain ⟨options, kept, hoptions, rfl, hfield, -, -, hagain⟩ :=
    plugins_merged_once repeating hknown hextras
  have hkept : firstsAfter [Dialect.modulesPlugin] repeating.plugins = [.int 1,
      .list [.object [(.str "a", .int 1), (.str "b", .null)]]] := by
    decide +kernel
  rw [hkept] at hfield hagain
  exact ⟨hknown, hextras, options, hoptions, hfield, hagain⟩

end Downgrader

end FunctionPipeline
