import CmakeFrame.Zookconfig.ReadBack

/-!
# Servers that are registered and listed

`createServerInfo` prints an address, a port and a suffix into `char infoValue[512]` and creates a
node with it. `getTcpServerListInfo` reads the children of a path and takes the values apart.

* `createServerInfo`: `none` is a write behind `infoValue`.
* `HasChild`, `Serves`: what zookeeper answers for a path, when every call gets through.
* `hasChild_iff`: behind the call there is one child. `list_registered`: what is read of it.
* `Listable`: the condition; `registration_read_iff`.
* `large_port_lost`: a port above 32767.
-/

namespace CmakeFrame
namespace Zookconfig

open Lib

/-- What `sprintf` prints. -/
def infoValue (ip : Bytes) (port : Int32) (suffix : Bytes) : Bytes :=
  if suffix = [] then cstr ip ++ 58 :: intDec port.toInt
  else cstr ip ++ 58 :: (intDec port.toInt ++ 58 :: cstr suffix)

/-- The nodes behind the call, and its code. -/
def createServerInfo (z : Zookeeper) (nodes : Nodes) (path ip : Bytes) (port : Int32)
    (suffix : Bytes) : Option (Nodes × Int) :=
  if (infoValue ip port suffix).length < 512 then
    some (CreateCall.run z nodes ⟨.createSessionPath, path, infoValue ip port suffix⟩)
  else none

/-! ## What zookeeper answers -/

/-- `name` is a child of `path`. -/
def HasChild (nodes : Nodes) (path name : Bytes) : Prop :=
  name ≠ [] ∧ 47 ∉ name ∧ 0 ∉ name ∧ nodes (childPath path name) ≠ none

/-- There is a handle, and every call for `path` gets through to the nodes. -/
structure Serves (z : Zookeeper) (nodes : Nodes) (path : Bytes) (w : Situation) : Prop where
  zkHandle : w.zkHandle = true
  getChildren : retry w.colonyNum w.service.getChildren = .ok ()
  nodup : (w.service.children.map Child.name).Nodup
  names : ∀ name, name ∈ w.service.children.map Child.name ↔ HasChild nodes path name
  values : ∀ c ∈ w.service.children,
    retry w.colonyNum c.replies = z.zooGet nodes (childPath path c.name)

/-- The call gives 1, and the one server that was registered. -/
def ListsOne (n : Int) (ip : Bytes) (port : Int32) (suffix : Bytes) : Option ServerCall → Prop
  | none => False
  | some r => r.ret = 1 ∧ ∃ info : TcpServerInfo, r.infoList = [info] ∧ info.gateNo.toInt = n ∧
      info.ipAddr = ip ∧ info.port.toInt = port.toInt ∧ info.suffix = suffix

/-- The path is one of a service that was not asked for before, the number is one of 32 bits, the port
one of 15, and the path of the node fits. -/
structure Listable (s : ZookConfig) (path : Bytes) (n : Int) (port : Int32) : Prop where
  check : 1 < zookeeperPathCheck path
  zero : 0 ∉ path
  new : path ∉ s.serverPathVector
  fits : PathFits (childPath path (intDec n))
  number : -2 ^ 31 ≤ n ∧ n < 2 ^ 31
  port : port.toInt < 32768

/-! ## The child -/

section

variable {z : Zookeeper} {nodes nodes' : Nodes} {path ip suffix : Bytes} {port : Int32} {n : Int}

theorem ancestors_length_le {c : CreateCall} {a b : Bytes} (h : c.leaf = a ++ 47 :: b)
    (hb : 47 ∉ b) : ∀ p ∈ c.ancestors, p.length ≤ a.length := by
  intro p hp
  simp only [CreateCall.ancestors, List.mem_filterMap, List.mem_range] at hp
  obtain ⟨i, hi, hp⟩ := hp
  split at hp
  · rename_i hslash
    cases hp
    rw [List.length_take]
    by_contra hlt
    -- a slash behind `a` and its own would be one of `b`
    have hget := hslash.2
    rw [h, List.getElem?_append_right (by omega), List.getElem?_cons] at hget
    split at hget
    · omega
    · exact hb (List.mem_of_getElem? hget)
  · cases hp

theorem slash_notMem_intDec (n : Int) : 47 ∉ intDec n := by
  intro h
  rcases mem_intDec h with h | h
  · exact absurd h (by decide)
  · exact absurd h (by decide)

theorem zero_notMem_intDec (n : Int) : 0 ∉ intDec n := by
  intro h
  rcases mem_intDec h with h | h
  · exact absurd h (by decide)
  · exact absurd h (by decide)

theorem intDec_ne_nil (n : Int) : intDec n ≠ [] := by
  unfold intDec
  split
  · simp
  · exact natDec_ne_nil _

/-- The call of `createSessionPath` in it. -/
def serverCall (path ip : Bytes) (port : Int32) (suffix : Bytes) (n : Int) : CreateCall :=
  ⟨.createSessionPath, path ++ 47 :: intDec n, infoValue ip port suffix⟩

theorem leaf_serverCall (h : 0 ∉ path) :
    (serverCall path ip port suffix n).leaf = path ++ 47 :: intDec n := by
  show cstr (path ++ 47 :: intDec n) = _
  apply cstr_eq_self
  simp [h, zero_notMem_intDec]

theorem leaf_serverCall_of_mem (h : 0 ∈ path) :
    (serverCall path ip port suffix n).leaf = cstr path :=
  cstr_append_of_mem h _

theorem createServerInfo_ok
    (h : createServerInfo z nodes (path ++ 47 :: intDec n) ip port suffix = some (nodes', ZOK)) :
    (infoValue ip port suffix).length < 512 ∧
      (serverCall path ip port suffix n).run z nodes = (nodes', ZOK) := by
  rw [createServerInfo] at h
  split at h
  · rename_i hlen
    exact ⟨hlen, Option.some_inj.mp h⟩
  · cases h

/-- No ancestor of the node is a child of the path. -/
theorem childPath_notMem_ancestors (name : Bytes) :
    childPath path name ∉ (serverCall path ip port suffix n).ancestors := by
  intro hmem
  by_cases hpath : 0 ∈ path
  · simp only [CreateCall.ancestors, leaf_serverCall_of_mem hpath, List.mem_filterMap,
      List.mem_range] at hmem
    obtain ⟨i, hi, hmem⟩ := hmem
    split at hmem
    · have hlen := congrArg List.length (Option.some_inj.mp hmem)
      rw [childPath, List.length_take, List.length_append, List.length_cons] at hlen
      omega
    · cases hmem
  · have hlen := ancestors_length_le (leaf_serverCall hpath) (slash_notMem_intDec n) _ hmem
    rw [childPath, cstr_eq_self hpath, List.length_append, List.length_cons] at hlen
    omega

theorem childPath_eq_leaf_iff {name : Bytes} (hname : 0 ∉ name) :
    childPath path name = (serverCall path ip port suffix n).leaf ↔ 0 ∉ path ∧ name = intDec n := by
  by_cases hpath : 0 ∈ path
  · refine iff_of_false (fun heq => ?_) fun h => h.1 hpath
    rw [leaf_serverCall_of_mem hpath, childPath] at heq
    simp at heq
  · rw [leaf_serverCall hpath, childPath, cstr_eq_self hpath, cstr_eq_self hname]
    simp [hpath]

/-- Behind the call the node is the only child, unless a 0 cuts its path. -/
theorem hasChild_iff (hempty : ∀ name, ¬ HasChild nodes path name)
    (hrun : (serverCall path ip port suffix n).run z nodes = (nodes', ZOK)) (name : Bytes) :
    HasChild nodes' path name ↔ 0 ∉ path ∧ name = intDec n := by
  have hok : ((serverCall path ip port suffix n).run z nodes).2 = ZOK := by rw [hrun]
  obtain ⟨hcheck, -⟩ := run_leaf hok
  have hnodes := (runs_of_run hcheck hok).run hcheck
  rw [hrun, Prod.mk.injEq] at hnodes
  constructor
  · rintro ⟨hne, hslash, hzero, hnode⟩
    by_contra hnot
    have hleaf : childPath path name ≠ (serverCall path ip port suffix n).leaf :=
      fun heq => hnot ((childPath_eq_leaf_iff hzero).mp heq)
    rw [hnodes.1, Function.update_of_ne hleaf] at hnode
    refine hempty name ⟨hne, hslash, hzero, fun hnone => hnode ?_⟩
    exact withAncestors_eq_none.mpr ⟨hnone, childPath_notMem_ancestors name⟩
  · rintro ⟨hpath, rfl⟩
    have hleaf : childPath path (intDec n) = (serverCall path ip port suffix n).leaf :=
      (childPath_eq_leaf_iff (zero_notMem_intDec n)).mpr ⟨hpath, rfl⟩
    refine ⟨intDec_ne_nil n, slash_notMem_intDec n, zero_notMem_intDec n, ?_⟩
    rw [hnodes.1, hleaf, Function.update_self]
    simp

/-! ## What is read -/

/-- The server of the node. -/
def endpoint (ip : Bytes) (port : Int32) (suffix : Bytes) : Endpoint :=
  ⟨ip, port.toInt.natAbs, if suffix = [] then none else some suffix⟩

theorem endpoint_wellFormed (hip : 58 ∉ ip ∧ 0 ∉ ip) (hsuffix : 0 ∉ suffix)
    (hport : 0 ≤ port.toInt ∧ port.toInt ≤ 65535) : (endpoint ip port suffix).WellFormed where
  ip := hip.1
  zero := by
    refine ⟨hip.2, ?_⟩
    by_cases hnil : suffix = []
    · simp [endpoint, Endpoint.tail, hnil]
    · simp [endpoint, Endpoint.tail, hnil, hsuffix]
  port := by
    show port.toInt.natAbs < 65536
    omega

theorem infoValue_eq (hip : 0 ∉ ip) (hsuffix : 0 ∉ suffix) (hport : 0 ≤ port.toInt) :
    infoValue ip port suffix = (endpoint ip port suffix).text := by
  have hdec : intDec port.toInt = natDec port.toInt.natAbs := if_neg (by omega)
  rw [infoValue, Endpoint.text, endpoint, cstr_eq_self hip, hdec]
  by_cases hnil : suffix = []
  · simp [hnil, Endpoint.tail]
  · simp [hnil, Endpoint.tail, cstr_eq_self hsuffix]

/-- The number of the node, behind `atoi`. -/
theorem toInt_atoi_intDec_iff (n : Int) : (atoi (intDec n)).toInt = n ↔ -2 ^ 31 ≤ n ∧ n < 2 ^ 31 := by
  constructor
  · intro h
    rw [← h]
    exact ⟨(atoi (intDec n)).le_toInt, (atoi (intDec n)).toInt_lt⟩
  · rintro ⟨hle, hlt⟩
    have hn : (Int32.ofInt n).toInt = n := Int32.toInt_ofInt_of_le hle (by omega)
    have hatoi := atoi_intDec (Int32.ofInt n) (s := []) (by simp [EndsNumber])
    rw [List.append_nil, hn] at hatoi
    rw [hatoi, hn]

theorem names_eq_singleton {names : List Bytes} {name : Bytes} (hnodup : names.Nodup)
    (h : ∀ x, x ∈ names ↔ x = name) : names = [name] :=
  List.perm_singleton.mp <| (List.perm_ext_iff_of_nodup hnodup (List.nodup_singleton _)).mpr
    fun x => by rw [h, List.mem_singleton]

/-- What the load of the path gives. -/
theorem list_registered (hip : 58 ∉ ip ∧ 0 ∉ ip) (hsuffix : 0 ∉ suffix)
    (hport : 0 ≤ port.toInt ∧ port.toInt ≤ 65535) (hempty : ∀ name, ¬ HasChild nodes path name)
    (hcreate : createServerInfo z nodes (path ++ 47 :: intDec n) ip port suffix =
      some (nodes', ZOK)) {w : Situation} (hserves : Serves z nodes' path w) (hpath : 0 ∉ path) :
    LoadTcpServerListInfo w.colonyNum path w.service =
      if PathFits (childPath path (intDec n)) then
        let e := endpoint ip port suffix
        let info := ⟨atoi (intDec n), serverPort (natDec e.port ++ e.tail), ip, suffix⟩
        some ⟨[info], [some info], 1, true⟩
      else none := by
  obtain ⟨hlen, hrun⟩ := createServerInfo_ok hcreate
  have hok : ((serverCall path ip port suffix n).run z nodes).2 = ZOK := by rw [hrun]
  obtain ⟨hcheck, node, hnode, hvalue⟩ := run_leaf hok
  have hacc := (runs_of_run hcheck hok).accepts
  have hnode : nodes' (serverCall path ip port suffix n).leaf = some node := by
    rw [hrun] at hnode
    exact hnode
  have hwf := endpoint_wellFormed hip hsuffix hport
  -- the only child
  have hnames := names_eq_singleton hserves.nodup fun x => by
    rw [hserves.names, hasChild_iff hempty hrun, and_iff_right hpath]
  obtain ⟨c, hc, hname⟩ := List.map_eq_singleton_iff.mp hnames
  have hleaf : childPath path (intDec n) = (serverCall path ip port suffix n).leaf :=
    (childPath_eq_leaf_iff (zero_notMem_intDec n)).mpr ⟨hpath, rfl⟩
  have hreply : retry w.colonyNum c.replies = .ok (endpoint ip port suffix).text := by
    rw [hserves.values c (by simp [hc]), hname, hleaf, Zookeeper.zooGet, if_neg (by simp [hacc]),
      hnode]
    simp only [hvalue, Option.getD_some]
    exact congrArg _ (infoValue_eq hip.2 hsuffix hport.1)
  have hfits : ValueFits (endpoint ip port suffix).text := by
    rw [← infoValue_eq hip.2 hsuffix hport.1, ValueFits]
    omega
  have hsuffix' : (endpoint ip port suffix).suffix.getD [] = suffix := by
    by_cases hnil : suffix = [] <;> simp [endpoint, hnil]
  rw [LoadTcpServerListInfo, hserves.getChildren, hc]
  by_cases hpathFits : PathFits (childPath path (intDec n))
  · have hchild : loadChild w.colonyNum path c = .push ⟨atoi (intDec n),
        serverPort (natDec (endpoint ip port suffix).port ++ (endpoint ip port suffix).tail), ip,
        suffix⟩ := by
      rw [loadChild, hname, if_neg (not_not.mpr hpathFits), hreply]
      simp only [Endpoint.text_ne_nil, hfits, Endpoint.loadInfo_text hwf, hsuffix', if_false,
        not_true_eq_false]
      rfl
    simp only [loadChildren, hchild, if_pos hpathFits]
    rfl
  · have hchild : loadChild w.colonyNum path c = .overflow := by
      rw [loadChild, hname, if_pos hpathFits]
    simp only [loadChildren, hchild, if_neg hpathFits]

theorem not_listsOne {r : ServerCall} (h : r.ret ≠ 1) : ¬ ListsOne n ip port suffix (some r) :=
  fun hl => h hl.1

/-- A path with a 0 has no children. -/
theorem list_nothing (hempty : ∀ name, ¬ HasChild nodes path name)
    (hcreate : createServerInfo z nodes (path ++ 47 :: intDec n) ip port suffix =
      some (nodes', ZOK)) {w : Situation} (hserves : Serves z nodes' path w) (hpath : 0 ∈ path) :
    LoadTcpServerListInfo w.colonyNum path w.service = some ⟨[], [], 0, true⟩ := by
  obtain ⟨-, hrun⟩ := createServerInfo_ok hcreate
  have hnone : w.service.children = [] := by
    rw [← List.map_eq_nil_iff (f := Child.name), List.eq_nil_iff_forall_not_mem]
    intro name hname
    rw [hserves.names, hasChild_iff hempty hrun] at hname
    exact hname.1 hpath
  rw [LoadTcpServerListInfo, hserves.getChildren, hnone]
  rfl

end

/-- **A server that is registered is listed.** Behind `createServerInfo` for a number below a path
without children, the list of the path has one server with this number, address, port and suffix,
exactly for the paths, numbers and ports of the condition. -/
theorem registration_read_iff (z : Zookeeper) (nodes nodes' : Nodes) (path ip suffix : Bytes)
    (port : Int32) (n : Int) (hip : 58 ∉ ip ∧ 0 ∉ ip) (hsuffix : 0 ∉ suffix)
    (hport : 0 ≤ port.toInt ∧ port.toInt ≤ 65535) (hempty : ∀ name, ¬ HasChild nodes path name)
    (hcreate : createServerInfo z nodes (path ++ 47 :: intDec n) ip port suffix =
      some (nodes', ZOK))
    (s : ZookConfig) (w : Situation) (hserves : Serves z nodes' path w)
    (infoList : List TcpServerInfo) :
    ListsOne n ip port suffix (s.getTcpServerListInfo w path infoList) ↔
      Listable s path n port := by
  have hwf := endpoint_wellFormed hip hsuffix hport
  have hsmall := Endpoint.toInt_serverPort_iff hwf
  have hnat : ((endpoint ip port suffix).port : Int) = port.toInt :=
    Int.natAbs_of_nonneg hport.1
  rw [ZookConfig.getTcpServerListInfo]
  by_cases hcheck : zookeeperPathCheck path ≤ 1
  · have hfalse : ¬ Listable s path n port := fun h => absurd h.check (by omega)
    rw [if_pos hcheck, ite_self]
    exact iff_of_false (not_listsOne (show ZOOK_CONFIG_PARAMETER_ERROR ≠ 1 by decide)) hfalse
  · have hne : path ≠ [] := by
      rintro rfl
      exact hcheck (by decide)
    rw [if_neg hne, if_neg hcheck, if_neg (not_not.mpr hserves.zkHandle)]
    by_cases hmem : path ∈ s.serverPathVector
    · rw [if_pos (List.contains_iff_mem.mpr hmem)]
      exact iff_of_false (not_listsOne (show ZOOK_SERVER_INFO_ALREADY_INIT ≠ 1 by decide))
        fun h => h.new hmem
    · rw [if_neg (List.contains_iff_mem.not.mpr hmem)]
      by_cases hpath : 0 ∈ path
      · rw [list_nothing hempty hcreate hserves hpath]
        exact iff_of_false (not_listsOne (show (0 : Int) ≠ 1 by decide)) fun h => h.zero hpath
      · rw [list_registered hip hsuffix hport hempty hcreate hserves hpath]
        by_cases hfits : PathFits (childPath path (intDec n))
        · rw [if_pos hfits]
          constructor
          · rintro ⟨-, info, hinfo, hno, -, hp, -⟩
            cases hinfo
            refine ⟨by omega, hpath, hmem, hfits, (toInt_atoi_intDec_iff n).mp hno, ?_⟩
            have := hsmall.mp (hp.trans hnat.symm)
            omega
          · intro h
            have hlt := h.port
            exact ⟨rfl, _, rfl, (toInt_atoi_intDec_iff n).mpr h.number, rfl,
              (hsmall.mpr (by omega)).trans hnat, rfl⟩
        · rw [if_neg hfits]
          exact iff_of_false id fun h => hfits h.fits

/-- The node `/s`, with nothing below it. -/
def serviceS : Nodes := Function.update onlyRoot [47, 115] (some ancestorNode)

theorem serviceS_empty (name : Bytes) : ¬ HasChild serviceS [47, 115] name := by
  rintro ⟨-, -, -, hnode⟩
  exact hnode (by simp [serviceS, onlyRoot, childPath, cstr, Function.update])

/-- The child `1` of `/s`, with the address `1` and a port. -/
def oneServer (port : Int32) : Situation :=
  ⟨true, 1, ⟨[⟨intDec 1, fun _ => .ok (infoValue [49] port [])⟩], fun _ => .ok ()⟩⟩

theorem oneServer_serves {port : Int32} {nodes' : Nodes}
    (h : createServerInfo strictServer serviceS ([47, 115] ++ 47 :: intDec 1) [49] port [] =
      some (nodes', ZOK)) : Serves strictServer nodes' [47, 115] (oneServer port) := by
  obtain ⟨-, hrun⟩ := createServerInfo_ok h
  have hnode : nodes' [47, 115, 47, 49] = some ⟨some (infoValue [49] port []), .readUnsafe, true⟩ := by
    have hnodes : nodes' = _ := (congrArg Prod.fst hrun).symm
    rw [hnodes]
    rfl
  refine ⟨rfl, rfl, by simp [oneServer], fun name => ?_, fun c hc => ?_⟩
  · rw [hasChild_iff serviceS_empty hrun]
    simp [oneServer]
  · obtain rfl := List.mem_singleton.mp hc
    have hget : strictServer.zooGet nodes' [47, 115, 47, 49] = .ok (infoValue [49] port []) := by
      rw [Zookeeper.zooGet, if_neg (by decide), hnode]
      rfl
    exact hget.symm

/-- Port 80 of the server 1 of `/s`. -/
theorem registration_read_http :
    ListsOne 1 [49] 80 [] (ZookConfig.new.getTcpServerListInfo (oneServer 80) [47, 115] []) :=
  (registration_read_iff strictServer serviceS _ [47, 115] [49] [] 80 1 (by decide) (by decide)
    (by decide) serviceS_empty rfl .new (oneServer 80) (oneServer_serves rfl) []).mpr
    ⟨by decide, by decide, by decide, by decide, by decide, by decide⟩

/-- Port 40000 comes back as -25536. -/
theorem large_port_lost : ¬ ∀ (port : Int32) (nodes' : Nodes) (w : Situation),
    0 ≤ port.toInt ∧ port.toInt ≤ 65535 →
    createServerInfo strictServer serviceS ([47, 115] ++ 47 :: intDec 1) [49] port [] =
      some (nodes', ZOK) → Serves strictServer nodes' [47, 115] w →
    ListsOne 1 [49] port [] (ZookConfig.new.getTcpServerListInfo w [47, 115] []) := by
  intro h
  obtain ⟨-, info, hinfo, -, -, hport, -⟩ := h 40000 _ (oneServer 40000) (by decide) rfl
    (oneServer_serves rfl)
  have hvalue : info.port.toInt = -25536 := by
    cases hinfo
    decide +kernel
  rw [hvalue] at hport
  exact absurd hport (by decide)

end Zookconfig
end CmakeFrame
