/-
A configuration survives being written and read back, as a document and as the lines that the
`config` command prints (`document_restores`). Only a missing banner does not: it is left out of the
document, and comes back as the banner of a console that is not told otherwise.
-/
import ClusterConsole.Console
import ClusterConsole.Proofs.Toml.Tables
import ClusterConsole.Session

namespace ClusterConsole

open Toml

/-! ## Lists -/

theorem Toml.asList_ofTexts (ts : List Text) : asList asText (ofTexts ts) = some ts := by
  have hitems : (ts.map Toml.text).mapM asText = some ts := by
    induction ts with
    | nil => rfl
    | cons t ts ih => simp [ih, asText]
  exact hitems

theorem ClusterMember.ofToml_toToml (m : ClusterMember) : ofToml m.toToml = some m := by
  have hroles := asList_ofTexts m.roles
  simp [ofToml, toToml, field?, setting, asText, hroles, List.lookup_cons]

theorem Cluster.ofToml_toToml (c : Cluster) : ofToml c.toToml = some c := by
  have hmembers : ∀ ms : List ClusterMember,
      (ms.map ClusterMember.toToml).mapM ClusterMember.ofToml = some ms := by
    intro ms
    induction ms with
    | nil => rfl
    | cons m ms ih => simp [ih, ClusterMember.ofToml_toToml]
  simp [ofToml, toToml, field?, setting, asText, asList, hmembers, List.lookup_cons]

namespace Config

/-- The configuration with the default banner in place of a missing one. -/
def restored (c : Config) : Config := { c with banner := c.banner.or ({} : Config).banner }

theorem ofSettings_settings (c : Config) : ofSettings c.settings = some c.restored := by
  have hhandlers := asList_ofTexts c.handlers
  have hcluster := Cluster.ofToml_toToml c.cluster
  cases hbanner : c.banner <;>
    simp [ofSettings, settings, field?, setting, asText, asBool, hhandlers, hcluster,
      List.lookup_cons, restored, hbanner]

theorem fits_ofTexts (n : Nat) (ts : List Text) : Fits n (ofTexts ts) :=
  .inl (by simp [isInline, isAtom])

@[simp]
theorem isSection_ofTexts (ts : List Text) : isSection (ofTexts ts) = false := by
  cases ts <;> rfl

theorem fitsItems_members (n : Nat) (ms : List ClusterMember) :
    FitsItems n (ms.map ClusterMember.toToml) := by
  induction ms with
  | nil => trivial
  | cons m ms ih =>
    have hkeys : ["address".toList, "protocol".toList, "status".toList, "roles".toList].Nodup := by
      decide
    exact ⟨hkeys, ⟨trivial, trivial, trivial, fits_ofTexts _ m.roles, trivial⟩, ih⟩

theorem pairsFirst_member (m : ClusterMember) : pairsFirst m.toToml = m.toToml := by
  simp [ClusterMember.toToml, pairsFirst, pairsOf, sectionsOf]

theorem pairsFirst_members (ms : List ClusterMember) :
    pairsFirstItems (ms.map ClusterMember.toToml) = ms.map ClusterMember.toToml := by
  induction ms with
  | nil => rfl
  | cons m ms ih => rw [List.map_cons, pairsFirstItems, pairsFirst_member, ih]

theorem isSection_members (ms : List ClusterMember) :
    isSection (.array (ms.map ClusterMember.toToml)) = !ms.isEmpty := by
  have htables : (ms.map ClusterMember.toToml).all isTable = true := by
    simp [ClusterMember.toToml, isTable]
  rw [isSection, htables]
  simp

/-- The members of a cluster stand behind its name, whether they are written on the line of their
key or under headers. -/
theorem pairsFirst_cluster (c : Cluster) : pairsFirst c.toToml = c.toToml := by
  have hmembers := pairsFirst_members c.members
  cases hnil : c.members.isEmpty <;>
    simp [Cluster.toToml, pairsFirst, pairsOf, sectionsOf, isSection_members, hmembers, hnil]

theorem fits_cluster (c : Cluster) : Fits 1 c.toToml := by
  have hkeys : ["name".toList, "members".toList].Nodup := by decide
  exact ⟨by decide, hkeys, trivial, .inr ⟨by decide, fitsItems_members 2 c.members⟩, trivial⟩

theorem nodup_settings (c : Config) : (c.settings.map Prod.fst).Nodup := by
  cases hbanner : c.banner <;> simp [settings, hbanner]

theorem fits_settings (c : Config) : FitsFields 1 c.settings := by
  have hhandlers := fits_ofTexts 1 c.handlers
  have hcluster := fits_cluster c.cluster
  cases hbanner : c.banner <;> simp [settings, hbanner, FitsFields, Fits, hhandlers, hcluster]

theorem arranged_settings (c : Config) : arranged c.settings = c.settings := by
  have hcluster := pairsFirst_cluster c.cluster
  have hsection : isSection c.cluster.toToml = true := rfl
  cases hbanner : c.banner <;>
    simp [settings, hbanner, arranged, pairsOf, sectionsOf, hcluster, hsection]

/-! ## Reading back -/

/-- A document stands for the configuration, and for exactly this one if it has a banner. -/
structure Restores (c : Config) (document : Text) : Prop where
  restored : ofDocument document = .ok c.restored
  unchanged_iff : ofDocument document = .ok c ↔ c.banner.isSome = true

theorem restored_eq_self_iff (c : Config) : c.restored = c ↔ c.banner.isSome = true := by
  unfold restored
  cases c with
  | mk prompt banner await logFilter handlers cluster => cases banner <;> simp

theorem restores_of_read {c : Config} (hvalid : c.validate = .ok ()) {document : Text}
    (h : read document = some c.settings) : c.Restores document := by
  have hvalid' : c.restored.validate = .ok () := hvalid
  have hdocument : ofDocument document = .ok c.restored := by
    rw [ofDocument, h, Option.bind_some, ofSettings_settings]
    simp [hvalid', Except.map]
  refine ⟨hdocument, ?_⟩
  rw [hdocument, Except.ok.injEq, restored_eq_self_iff]

/-- The lines that the command prints are those of the document. -/
theorem rendering_execute {c : Config} {s : Console} {cmd : Command} {p : ParsedOptions}
    (hhandler : s.handlers[cmd.registration.handler.place]? = some (.config c))
    (hoptions : cmd.parseOptions = .ok p) (hkey : p.value 'k' = none) :
    (s.execute cmd).2.events.flatMap Event.rendering = c.document.lines := by
  have hexecute : (s.execute cmd).2.events = Event.listing c.document.lines := by
    simp [Console.execute, hhandler, Handler.execute, Handler.parsed, hoptions, hkey, events,
      Except.mapError, Except.map, Console.perform]
  have hlines : ∀ lines : List Text, (lines.map Event.line).flatMap Event.rendering = lines := by
    intro lines
    induction lines with
    | nil => rfl
    | cons line lines ih => rw [List.map_cons, List.flatMap_cons, ih]; rfl
  rw [hexecute, Event.listing, List.flatMap_append, hlines]
  simp [Event.done, Event.rendering]

/-- A configuration that the console can start from is read back from its document, and from the
lines that the command prints. -/
theorem document_restores {c : Config} (h : c.validate = .ok ()) :
    c.Restores c.document ∧
      ∀ (s : Console) (cmd : Command) (p : ParsedOptions),
        s.handlers[cmd.registration.handler.place]? = some (.config c) →
        cmd.parseOptions = .ok p → p.value 'k' = none →
        c.Restores (Text.join "\n" ((s.execute cmd).2.events.flatMap Event.rendering)) := by
  have hkeys := nodup_settings c
  have hfits := fits_settings c
  constructor
  · exact restores_of_read h (by rw [document, read_write hkeys hfits, arranged_settings])
  · intro s cmd p hhandler hoptions hkey
    rw [rendering_execute hhandler hoptions hkey]
    exact restores_of_read h (by rw [document, read_join_lines hkeys hfits, arranged_settings])

/-- A configuration without a banner and with texts that are quoted in each of the four ways. -/
def quotedSample : Config where
  prompt := "a \"word\""
  banner := none
  logFilter := "\r\n\"\"\"\u0000"
  handlers := ["config", "two\nlines\\", "it's \"\"\"\n"]
  cluster := ⟨"plain", [⟨"", "'''", "\"", ["a,b", "]"]⟩]⟩

theorem document_restores_sample :
    let s : Console := ⟨[.config quotedSample], .empty, .closed⟩
    let cmd : Command := ⟨Handler.configPath, ⟨⟨"config", 0⟩, Handler.configPath,
      some Handler.configOptions, none⟩, ⟨Line.ofRaw "config", ["config"]⟩⟩
    quotedSample.validate = .ok () ∧ quotedSample.Restores quotedSample.document ∧
      quotedSample.Restores
        (Text.join "\n" ((s.execute cmd).2.events.flatMap Event.rendering)) := by
  intro s cmd
  have hvalid : quotedSample.validate = .ok () := by decide
  obtain ⟨hdocument, hprinted⟩ := document_restores hvalid
  exact ⟨hvalid, hdocument, hprinted s cmd ⟨[], []⟩ rfl (by decide) (by decide)⟩

end Config

end ClusterConsole
