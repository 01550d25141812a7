import ThreefoldSdk.Lib.Ipv4
import ThreefoldSdk.Playground.Gateways

/-! `deleteDeployment` of the playground (`utils/delete_deployment.ts`): which gateways go with a
machine or a cluster. They are told by texts: the project by how it begins, the addresses by what a
backend contains. -/

namespace ThreefoldSdk.Playground

/-- `grid.twinId`, what answers in time, `toLowerCase` of a name, and whether the part for a QVM
fails. -/
structure PlaygroundEnv where
  twinId : Nat
  answers : String → Bool
  toLowerCase : String → String
  qvmFails : Bool

structure DeleteDeploymentOptions where
  name : String
  projectName : String
  ip : Option (List String)
  k8s : Bool

/-- `projectName.includes(name) || projectName.includes(name.toLowerCase())` for one of the
names. -/
def includesAny (names : List String) (projectName : String) : Bool :=
  names.any fun name => decide (name.toList <:+: projectName.toList) ||
    decide (name.toList.map Char.toLower <:+: projectName.toList)

def isVm (projectName : String) : Bool := includesAny ["Fullvm", "VM"] projectName

def solutionHasGateway (projectName : String) : Bool :=
  includesAny ["Discourse", "Funkwhale", "Mastodon", "Mattermost", "Casperlabs", "Owncloud",
    "Peertube", "Subsquid", "Taiga", "Wordpress", "Nextcloud", "Gitea", "Jenkins", "Jitsi"]
    projectName

def solutionCode : List (String × String) :=
  [("jenkins", "jk"), ("peertube", "pt"), ("funkwhale", "fw"), ("taiga", "tg"),
    ("discourse", "dc"), ("owncloud", "oc"), ("nextcloud", "nc"), ("mattermost", "mm"),
    ("mastodon", "md"), ("tfhubvalidator", "tfvalidator"), ("casperlabs", "cl"),
    ("presearch", "ps"), ("caprover", "cp"), ("kubernetes", "k8s"), ("machines", "vm"),
    ("vm", "vm"), ("nodepilot", "np"), ("fullvm", "fvm"), ("subsquid", "ss"), ("algorand", "al"),
    ("qvm", "qvm"), ("umbrel", "um"), ("wordpress", "wp"), ("staticwebsite", "sw"),
    ("tfrobot", "tfr"), ("gitea", "gt"), ("nostr", "nt"), ("Domains", "dm"), ("jitsi", "jt")]

/-- The filter of `deleteVmGateways`; without ips there is none. -/
def mentions (ips : Option (List String)) (g : Gateway) : Bool :=
  match ips with
  | some ips => g.backends.any fun bk => ips.any fun ip => decide (ip.toList <:+: bk.toList)
  | none => true

section
variable (env : PlaygroundEnv)

/-- Without a code the sum of `undefined` and the twin is no number. -/
def getSubdomain (deploymentName projectName : String) : String :=
  (match solutionCode.lookup (Ipv4.beforeSlash projectName) with
    | some code => code ++ toString env.twinId
    | none => "NaN") ++ env.toLowerCase deploymentName

def deleteVmGateways (project : String) (ips : Option (List String)) (gs : List Gateway) :
    List Gateway × List Gateway :=
  deleteNames project
    ((loadDeploymentGateways env.answers project (mentions ips) gs).map (·.name)) gs

/-- The loop of `deleteDeploymentGateway`: it ends where something is deleted. -/
def deleteFirst (subdomain : String) : List String → List Gateway → List Gateway × List Gateway
  | [], gs => ([], gs)
  | project :: projects, gs =>
    let (deleted, gs) := deleteName project subdomain gs
    if deleted = [] then deleteFirst subdomain projects gs else (deleted, gs)

/-- The projects in which a solution's gateway may be. -/
def gatewayProjects (o : DeleteDeploymentOptions) : List String :=
  [o.projectName, "GatewayName", ""]

def deleteForVm (project : String) (o : DeleteDeploymentOptions) (gs : List Gateway) :
    List Gateway × List Gateway :=
  if isVm o.projectName then deleteVmGateways env project o.ip gs else ([], gs)

/-- The part for solutions, `deleteDeploymentGateway`. -/
def deleteForSolution (o : DeleteDeploymentOptions) (gs : List Gateway) :
    List Gateway × List Gateway :=
  if solutionHasGateway o.projectName then
    deleteFirst (getSubdomain env o.name o.projectName) (gatewayProjects o) gs
  else ([], gs)

def deleteForCluster (project : String) (o : DeleteDeploymentOptions) (gs : List Gateway) :
    List Gateway :=
  if o.k8s then
    (deleteNames project
      ((loadDeploymentGateways env.answers project (fun _ => true) gs).map (·.name)) gs).1
  else []

/-- The part for solutions sets the grid back to the project of the options. -/
def lastProject (project : String) (o : DeleteDeploymentOptions) : String :=
  if solutionHasGateway o.projectName then o.projectName else project

/-- `deleteDeployment`, on a grid that is set to the project: the gateways it deletes. -/
def deleteDeployment (project : String) (o : DeleteDeploymentOptions) (gs : List Gateway) :
    List Gateway :=
  if o.projectName = "Qvm" ∧ env.qvmFails then []
  else
    let vm := deleteForVm env project o gs
    let solution := deleteForSolution env o vm.2
    vm.1 ++ solution.1 ++ deleteForCluster env (lastProject project o) o solution.2

end

/-! Which gateways are the deployment's own. -/

def schemeless (backend : List Char) : List Char :=
  if "http://".toList <+: backend then backend.drop 7
  else if "https://".toList <+: backend then backend.drop 8
  else backend

/-- The host of a backend; an IPv6 stands in brackets. -/
def host (backend : String) : String :=
  match schemeless backend.toList with
  | '[' :: rest => String.ofList (rest.takeWhile fun c => c ≠ ']')
  | rest => String.ofList (rest.takeWhile fun c => c ≠ ':' ∧ c ≠ '/')

example : host "http://[200:1::2]:80" = "200:1::2" := by decide

/-- A gateway of the cluster was created under its project; one of the machine leads to one of its
ips. -/
def Own (project : String) (o : DeleteDeploymentOptions) (g : Gateway) : Prop :=
  if o.k8s then g.projectName = project
  else ∃ backend ∈ g.backends, ∃ ip ∈ o.ip.getD [], host backend = ip

section
variable (env : PlaygroundEnv) (project : String) (o : DeleteDeploymentOptions)

/-- The gateway is listed, and so is one of its name that answers and mentions an ip. -/
def mentioned (gs : List Gateway) (g : Gateway) : Bool :=
  lists project g && gs.any fun g' => lists project g' && env.answers g'.name &&
    mentions o.ip g' && decide (g'.name = g.name)

/-- What the call for a machine leaves. -/
def unmentioned (gs : List Gateway) : List Gateway :=
  if isVm o.projectName then gs.filter fun g => !mentioned env project o gs g else gs

/-- A gateway of the name is listed under the project. -/
def standsUnder (name : String) (gs : List Gateway) (project : String) : Bool :=
  gs.any fun g => lists project g && decide (g.name = name)

/-- Only the deployment's own gateways are found: by an ip, by the subdomain of a solution in the
first project that lists one, and by the project of a cluster. -/
structure FindsOwn (gs : List Gateway) : Prop where
  vm : isVm o.projectName = true → ∀ g ∈ gs, mentioned env project o gs g = true → Own project o g
  solution : solutionHasGateway o.projectName = true → ∀ p,
    (gatewayProjects o).find? (standsUnder (getSubdomain env o.name o.projectName)
        (unmentioned env project o gs)) = some p →
      ∀ g ∈ unmentioned env project o gs, lists p g = true →
        g.name = getSubdomain env o.name o.projectName → Own project o g
  cluster : o.k8s = true → ∀ g ∈ gs, lists (lastProject project o) g = true →
    env.answers g.name = true → Own project o g

end

section
variable {env : PlaygroundEnv} {project : String} {o : DeleteDeploymentOptions}
  {gs : List Gateway}

theorem deleteVmGateways_spec :
    (∀ g, g ∈ (deleteVmGateways env project o.ip gs).1 ↔
        g ∈ gs ∧ mentioned env project o gs g = true) ∧
      (deleteVmGateways env project o.ip gs).2 =
        gs.filter fun g => !mentioned env project o gs g := by
  have hname : ∀ g : Gateway, (lists project g = true ∧ g.name ∈
      (loadDeploymentGateways env.answers project (mentions o.ip) gs).map (·.name)) ↔
        mentioned env project o gs g = true := by
    intro g
    unfold mentioned
    rw [Bool.and_eq_true_iff, List.any_eq_true, List.mem_map]
    apply and_congr_right
    intro _
    apply exists_congr
    intro g'
    rw [mem_loadDeploymentGateways]
    simp only [Bool.and_eq_true, decide_eq_true_eq]
    tauto
  obtain ⟨hdeleted, hrest⟩ := deleteNames_spec project
    ((loadDeploymentGateways env.answers project (mentions o.ip) gs).map (·.name)) gs
  constructor
  · intro g
    rw [← hname]
    exact hdeleted g
  · refine hrest.trans (List.filter_congr ?_)
    intro g _
    rw [Bool.eq_iff_iff, Bool.not_eq_true', Bool.not_eq_true', Bool.eq_false_iff,
      Bool.eq_false_iff, ne_eq, ne_eq, ← hname, Bool.and_eq_true_iff, decide_eq_true_eq]

/-- The first project that lists the subdomain decides. -/
theorem deleteFirst_spec (subdomain : String) (projects : List String) (gs : List Gateway) :
    (∀ g, g ∈ (deleteFirst subdomain projects gs).1 ↔
        ∃ p, projects.find? (standsUnder subdomain gs) = some p ∧
          g ∈ gs ∧ lists p g = true ∧ g.name = subdomain) ∧
      ∀ g, g ∈ (deleteFirst subdomain projects gs).2 ↔
        g ∈ gs ∧ g ∉ (deleteFirst subdomain projects gs).1 := by
  induction projects with
  | nil =>
    constructor
    · intro g
      refine iff_of_false List.not_mem_nil ?_
      intro h
      obtain ⟨p, hp, -⟩ := h
      cases hp
    · intro g
      exact (and_iff_left List.not_mem_nil).symm
  | cons project projects ih =>
    have hname : deleteName project subdomain gs =
        (gs.filter (fun g => lists project g && decide (g.name = subdomain)),
          gs.filter (not ∘ fun g => lists project g && decide (g.name = subdomain))) :=
      List.partition_eq_filter_filter
    by_cases hnone : gs.filter (fun g => lists project g && decide (g.name = subdomain)) = []
    · have hno := List.filter_eq_nil_iff.mp hnone
      have hsame : gs.filter (not ∘ fun g => lists project g && decide (g.name = subdomain)) =
          gs := by
        rw [List.filter_eq_self]
        intro g hg
        exact Bool.not_eq_true' _ ▸ Bool.not_eq_true _ ▸ hno g hg
      have heq : deleteFirst subdomain (project :: projects) gs =
          deleteFirst subdomain projects gs := by
        rw [deleteFirst, hname]
        dsimp only
        rw [if_pos hnone, hsame]
      have hany : ¬standsUnder subdomain gs project = true := by
        unfold standsUnder
        rw [List.any_eq_true]
        intro h
        obtain ⟨g, hg, htrue⟩ := h
        exact hno g hg htrue
      rw [heq, List.find?_cons_of_neg hany]
      exact ih
    · have heq : deleteFirst subdomain (project :: projects) gs =
          (gs.filter (fun g => lists project g && decide (g.name = subdomain)),
            gs.filter (not ∘ fun g => lists project g && decide (g.name = subdomain))) := by
        rw [deleteFirst, hname]
        dsimp only
        rw [if_neg hnone]
      have hany : standsUnder subdomain gs project = true := by
        obtain ⟨g, hg⟩ := List.exists_mem_of_ne_nil _ hnone
        obtain ⟨hg, htrue⟩ := List.mem_filter.mp hg
        exact List.any_eq_true.mpr ⟨g, hg, htrue⟩
      rw [heq, List.find?_cons_of_pos hany]
      have hdeleted : ∀ g, g ∈ gs.filter (fun g => lists project g && decide (g.name = subdomain)) ↔
          g ∈ gs ∧ lists project g = true ∧ g.name = subdomain := by
        intro g
        rw [List.mem_filter, Bool.and_eq_true_iff, decide_eq_true_eq]
      constructor
      · intro g
        rw [hdeleted]
        constructor
        · intro h
          exact ⟨project, rfl, h⟩
        · intro h
          obtain ⟨p, hp, hrest⟩ := h
          rw [← Option.some.inj hp] at hrest
          exact hrest
      · intro g
        rw [List.mem_filter, List.mem_filter, Function.comp_apply, Bool.not_eq_true', not_and,
          Bool.not_eq_true]
        exact and_congr_right fun hg => (imp_iff_right hg).symm

theorem deleteForVm_spec :
    (∀ g, g ∈ (deleteForVm env project o gs).1 ↔
        isVm o.projectName = true ∧ g ∈ gs ∧ mentioned env project o gs g = true) ∧
      (deleteForVm env project o gs).2 = unmentioned env project o gs := by
  unfold deleteForVm unmentioned
  by_cases hvm : isVm o.projectName = true
  · rw [if_pos hvm, if_pos hvm]
    refine ⟨?_, deleteVmGateways_spec.2⟩
    intro g
    rw [deleteVmGateways_spec.1, and_iff_right hvm]
  · rw [if_neg hvm, if_neg hvm]
    refine ⟨?_, rfl⟩
    intro g
    exact iff_of_false List.not_mem_nil fun h => hvm h.1

theorem deleteForSolution_spec (env : PlaygroundEnv) (o : DeleteDeploymentOptions)
    (gs : List Gateway) :
    (∀ g, g ∈ (deleteForSolution env o gs).1 ↔ solutionHasGateway o.projectName = true ∧
        ∃ p, (gatewayProjects o).find?
            (standsUnder (getSubdomain env o.name o.projectName) gs) = some p ∧
          g ∈ gs ∧ lists p g = true ∧ g.name = getSubdomain env o.name o.projectName) ∧
      ∀ g, g ∈ (deleteForSolution env o gs).2 ↔
        g ∈ gs ∧ g ∉ (deleteForSolution env o gs).1 := by
  unfold deleteForSolution
  by_cases hsolution : solutionHasGateway o.projectName = true
  · rw [if_pos hsolution]
    obtain ⟨hdeleted, hrest⟩ :=
      deleteFirst_spec (getSubdomain env o.name o.projectName) (gatewayProjects o) gs
    refine ⟨?_, hrest⟩
    intro g
    rw [hdeleted, and_iff_right hsolution]
  · rw [if_neg hsolution]
    constructor
    · intro g
      exact iff_of_false List.not_mem_nil fun h => hsolution h.1
    · intro g
      exact (and_iff_left List.not_mem_nil).symm

theorem mem_deleteForCluster {g : Gateway} : g ∈ deleteForCluster env project o gs ↔
    o.k8s = true ∧ g ∈ gs ∧ lists project g = true ∧ env.answers g.name = true := by
  unfold deleteForCluster
  by_cases hk8s : o.k8s = true
  · rw [if_pos hk8s, (deleteNames_spec project _ gs).1, and_iff_right hk8s, List.mem_map]
    apply and_congr_right
    intro hg
    apply and_congr_right
    intro hlists
    constructor
    · intro h
      obtain ⟨g', hg', hname⟩ := h
      rw [← hname]
      exact (mem_loadDeploymentGateways.mp hg').2.2.1
    · intro hanswers
      exact ⟨g, mem_loadDeploymentGateways.mpr ⟨hg, hlists, hanswers, rfl⟩, rfl⟩
  · rw [if_neg hk8s]
    exact iff_of_false List.not_mem_nil fun h => hk8s h.1

theorem mem_deleteDeployment (hqvm : ¬(o.projectName = "Qvm" ∧ env.qvmFails = true)) {g : Gateway} :
    g ∈ deleteDeployment env project o gs ↔
      (isVm o.projectName = true ∧ g ∈ gs ∧ mentioned env project o gs g = true) ∨
      (solutionHasGateway o.projectName = true ∧
        ∃ p, (gatewayProjects o).find? (standsUnder (getSubdomain env o.name o.projectName)
            (unmentioned env project o gs)) = some p ∧
          g ∈ unmentioned env project o gs ∧ lists p g = true ∧
            g.name = getSubdomain env o.name o.projectName) ∨
      (o.k8s = true ∧ g ∈ gs ∧ lists (lastProject project o) g = true ∧
        env.answers g.name = true) := by
  have hleft : g ∈ unmentioned env project o gs ↔
      g ∈ gs ∧ g ∉ (deleteForVm env project o gs).1 := by
    rw [deleteForVm_spec.1]
    unfold unmentioned
    by_cases hvm : isVm o.projectName = true
    · rw [if_pos hvm, List.mem_filter, Bool.not_eq_true']
      apply and_congr_right
      intro hg
      rw [not_and, not_and, imp_iff_right hvm, imp_iff_right hg, Bool.not_eq_true]
    · rw [if_neg hvm]
      exact (and_iff_left fun h => hvm h.1).symm
  have hvm : g ∈ (deleteForVm env project o gs).1 ↔ _ := deleteForVm_spec.1 g
  have hsolution := (deleteForSolution_spec env o (unmentioned env project o gs)).1 g
  have hrest := (deleteForSolution_spec env o (unmentioned env project o gs)).2 g
  unfold deleteDeployment
  rw [if_neg hqvm]
  dsimp only
  rw [List.mem_append, List.mem_append, deleteForVm_spec.2, mem_deleteForCluster, or_assoc, ← hvm,
    ← hsolution]
  apply or_congr_right'
  intro hvm
  apply or_congr_right'
  intro hsolution
  -- neither of the parts before has deleted it
  rw [hrest, hleft, and_iff_left hsolution, and_iff_left hvm]

/-- The gateways that are deleted are all the deployment's own exactly when only its own are
found. -/
theorem deleteDeployment_own_iff : (∀ g ∈ deleteDeployment env project o gs, Own project o g) ↔
    (o.projectName = "Qvm" ∧ env.qvmFails = true) ∨ FindsOwn env project o gs := by
  by_cases hqvm : o.projectName = "Qvm" ∧ env.qvmFails = true
  · refine iff_of_true ?_ (Or.inl hqvm)
    unfold deleteDeployment
    rw [if_pos hqvm]
    exact fun g hg => nomatch hg
  · rw [or_iff_right hqvm]
    constructor
    · intro h
      constructor
      · intro hvm g hg hmentioned
        exact h g ((mem_deleteDeployment hqvm).mpr (Or.inl ⟨hvm, hg, hmentioned⟩))
      · intro hsolution p hp g hg hlists hname
        exact h g ((mem_deleteDeployment hqvm).mpr
          (Or.inr (Or.inl ⟨hsolution, p, hp, hg, hlists, hname⟩)))
      · intro hk8s g hg hlists hanswers
        exact h g ((mem_deleteDeployment hqvm).mpr
          (Or.inr (Or.inr ⟨hk8s, hg, hlists, hanswers⟩)))
    · intro h g hg
      rcases (mem_deleteDeployment hqvm).mp hg with
        ⟨hvm, hg, hmentioned⟩ | ⟨hsolution, p, hp, hg, hlists, hname⟩ |
          ⟨hk8s, hg, hlists, hanswers⟩
      · exact h.vm hvm g hg hmentioned
      · exact h.solution hsolution p hp g hg hlists hname
      · exact h.cluster hk8s g hg hlists hanswers

end

/-! Two clusters, and two machines, whose names and ips begin with the same characters. -/

def playground : PlaygroundEnv := ⟨5, fun _ => true, id, false⟩

def clusterOptions : DeleteDeploymentOptions := ⟨"a", "kubernetes/a", some ["10.20.2.2"], true⟩

def machineOptions : DeleteDeploymentOptions := ⟨"web", "vm/web", some ["10.20.2.2"], false⟩

def clusterGateways : List Gateway :=
  [⟨7, "k8s5a", "kubernetes/a", ["http://10.20.2.2:80"], true, false⟩,
    ⟨8, "k8s5ab", "kubernetes/ab", ["http://10.30.2.2:80"], true, false⟩]

def machineGateways : List Gateway :=
  [⟨7, "vm5web", "vm/web", ["http://10.20.2.2:80"], true, false⟩,
    ⟨8, "vm5web2", "vm/web2", ["http://10.20.2.20:80"], true, false⟩]

/-- With a cluster or a machine goes the gateway of the other one. -/
theorem foreignGateway_deleted :
    ¬(∀ g ∈ deleteDeployment playground "kubernetes/a" clusterOptions clusterGateways,
        Own "kubernetes/a" clusterOptions g) ∧
      ¬∀ g ∈ deleteDeployment playground "vm/web" machineOptions machineGateways,
        Own "vm/web" machineOptions g := by
  constructor
  · intro h
    have hdeleted : ⟨8, "k8s5ab", "kubernetes/ab", ["http://10.30.2.2:80"], true, false⟩ ∈
        deleteDeployment playground "kubernetes/a" clusterOptions clusterGateways := by decide
    have hown := h _ hdeleted
    unfold Own at hown
    rw [if_pos (show clusterOptions.k8s = true from rfl)] at hown
    exact absurd hown (by decide)
  · intro h
    have hdeleted : ⟨8, "vm5web2", "vm/web2", ["http://10.20.2.20:80"], true, false⟩ ∈
        deleteDeployment playground "vm/web" machineOptions machineGateways := by decide
    have hown := h _ hdeleted
    unfold Own at hown
    rw [if_neg (by decide)] at hown
    exact absurd hown (by decide)

end ThreefoldSdk.Playground
