import ThreefoldSdk.Lib.Json

/-! The metadata that the modules put on the contracts of a deployment. -/

namespace ThreefoldSdk.Modules

/-- 3, or 4 when the network is a light one. -/
inductive MetadataVersion where
  | zos3
  | zos4
deriving DecidableEq, Repr

def MetadataVersion.toText : MetadataVersion → String
  | zos3 => "3"
  | zos4 => "4"

structure ContractMetadata where
  version : MetadataVersion
  type : String
  name : String
  projectName : String
deriving DecidableEq, Repr

/-- `JSON.stringify`. -/
def ContractMetadata.toText (m : ContractMetadata) : String :=
  "\x7b\"version\":" ++ (m.version.toText ++ (",\"type\":" ++ (Json.quote m.type ++ (",\"name\":" ++
    (Json.quote m.name ++ (",\"projectName\":" ++ (Json.quote m.projectName ++ "\x7d")))))))

/-- `this.config.projectName || ..`. -/
def projectNameOr (projectName fallback : String) : String :=
  if projectName = "" then fallback else projectName

def versionOf (light : Bool) : MetadataVersion := if light then .zos4 else .zos3

/-- In `MachinesModule._createDeployment`. -/
def machinesMetadata (projectName : String) (light : Bool) (name : String) : ContractMetadata :=
  ⟨versionOf light, "vm", name, projectNameOr projectName ("vm/" ++ name)⟩

/-- In `add_machine`; the fallback has the name of the machine. -/
def addMachineMetadata (projectName deploymentName name : String) : ContractMetadata :=
  ⟨.zos3, "vm", deploymentName, projectNameOr projectName ("vm/" ++ name)⟩

/-- In `K8sModule._createDeployment`. -/
def k8sMetadata (projectName : String) (light : Bool) (name : String) : ContractMetadata :=
  ⟨versionOf light, "kubernetes", name, projectNameOr projectName ("kubernetes/" ++ name)⟩

/-- In `add_worker`; the fallback has the name of the deployment. -/
def addWorkerMetadata (projectName deploymentName : String) : ContractMetadata :=
  ⟨.zos3, "kubernetes", deploymentName,
    projectNameOr projectName ("kubernetes/" ++ deploymentName)⟩

/-- In `ZdbsModule._createDeployment`. -/
def zdbsMetadata (projectName name : String) : ContractMetadata :=
  ⟨.zos3, "zdb", name, projectNameOr projectName ("zdb/" ++ name)⟩

/-- In `add_zdb`; the fallback has the name of the zdb. -/
def addZdbMetadata (projectName deploymentName name : String) : ContractMetadata :=
  ⟨.zos3, "zdb", deploymentName, projectNameOr projectName ("zdb/" ++ name)⟩

theorem versionText_inj {v v' : MetadataVersion} {s s' : String}
    (h : v.toText ++ s = v'.toText ++ s') : v = v' ∧ s = s' := by
  have hchars := congrArg String.toList h
  rw [String.toList_append, String.toList_append] at hchars
  cases v with
  | zos3 =>
    cases v' with
    | zos3 => exact ⟨rfl, (String.append_right_inj _).mp h⟩
    | zos4 =>
      injection hchars with hc
      exact absurd hc (by decide)
  | zos4 =>
    cases v' with
    | zos3 =>
      injection hchars with hc
      exact absurd hc (by decide)
    | zos4 => exact ⟨rfl, (String.append_right_inj _).mp h⟩

/-- Nothing of the metadata is lost in its text. -/
theorem ContractMetadata.toText_injective : Function.Injective ContractMetadata.toText := by
  intro m m' h
  obtain ⟨hversion, h⟩ := versionText_inj ((String.append_right_inj _).mp h)
  obtain ⟨htype, h⟩ := Json.quote_append_inj ((String.append_right_inj _).mp h)
  obtain ⟨hname, h⟩ := Json.quote_append_inj ((String.append_right_inj _).mp h)
  obtain ⟨hproject, -⟩ := Json.quote_append_inj ((String.append_right_inj _).mp h)
  cases m
  cases m'
  cases hversion
  cases htype
  cases hname
  cases hproject
  rfl

/-- What tells the contracts of a deployment from others. -/
structure Identity where
  type : String
  name : String
  projectName : String
deriving DecidableEq, Repr

def ContractMetadata.identity (m : ContractMetadata) : Identity := ⟨m.type, m.name, m.projectName⟩

/-- The text is of metadata with the identity. -/
def Identity.Carried (i : Identity) (text : String) : Prop :=
  ∃ m : ContractMetadata, m.identity = i ∧ text = m.toText

theorem Identity.carried_toText {i : Identity} {m : ContractMetadata} :
    i.Carried m.toText ↔ m.identity = i := by
  constructor
  · intro h
    obtain ⟨m', hm', htext⟩ := h
    rw [ContractMetadata.toText_injective htext]
    exact hm'
  · intro h
    exact ⟨m, h, rfl⟩

end ThreefoldSdk.Modules
