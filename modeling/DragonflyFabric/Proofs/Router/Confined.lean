import DragonflyFabric.Proofs.Router.Service

/-!
# Packets keep to their traffic class

A router that lets a packet go sends it by one of its ports and in a channel of the class that the packet came
in, whatever the packet and whatever the router has seen before: `confined`.
-/

namespace DragonflyFabric.Transit

/-- **A packet never leaves its traffic class.** It leaves by a port of the router, by a global port in the next
channel and by any other one in the channel it came in; the class of that channel is the one it came in, and the
router has the channel. The packet knows the channel it leaves in. -/
theorem confined {settings : Settings} {table : ExitTable.View} {index ports channels : Nat} {fresh : Router}
    (_hwords : settings.parameters.InWords)
    (hinstall : Router.install settings table index ports channels = .ok fresh) {t t' : Transit}
    (hsite : t.router.site = fresh.site) {channel : Nat} {seen : Congestion} {egress : Egress}
    (hrun : (forward channel seen).run t = (.ok egress, t')) :
    egress.port < settings.parameters.radix ∧
      (∃ network traffic, fresh.site.plan.classOf channel = .ok (network, traffic) ∧
        fresh.site.plan.classOf egress.channel = .ok (network, traffic)) ∧
      egress.channel < channels ∧
      egress.channel = (if settings.parameters.classOf? egress.port = some .exit then channel + 1 else channel) ∧
      t'.packet.channel = egress.channel := by
  obtain ⟨plan, hplan, hfits, hindex, rfl⟩ := Router.eq_of_install hinstall
  obtain ⟨network, traffic, port, kind, _, hclass, -, hkind, hroom, rfl, hchannel, rfl⟩ := ok_of_forward hrun
  rw [hsite] at hclass hkind hroom hchannel
  obtain ⟨hget, -⟩ := ChannelPlan.of_classOf hclass
  rw [hchannel]
  refine ⟨?_, ⟨network, traffic, hclass, ?_⟩, ?_, rfl, by rw [hsite]⟩
  · have hrouters : 0 < settings.parameters.routers := Nat.pos_of_lt_mul_right hindex
    exact Parameters.lt_radix_of_classOf? hrouters hkind
  · exact (ChannelPlan.laidOut_of_make hplan).classOf_eq hget hroom
  · have hlt := (TrafficClass.contains_iff.mp hroom).2
    exact Nat.lt_of_lt_of_le hlt (Nat.le_trans (ChannelPlan.stop_le_total hplan hget) hfits)

/-- At a router of the small network that has the exit a minimal packet is to take. -/
theorem confined_sample :
    let n := Installation.sample
    let fresh := n.newRouter 0 8
    let t : Transit := ⟨fresh, ⟨⟨0, 2, 0, 64⟩, 0, 0, ⟨1, 1, 1, 0, 0⟩, 0, 0⟩⟩
    n.parameters.InWords ∧ Router.install n.settings n.table 0 3 8 = .ok fresh ∧
      ∃ t', (forward 0 .idle).run t = (.ok ⟨2, 1, 0⟩, t') ∧ 2 < n.parameters.radix ∧ 1 < 8 ∧
        t'.packet.channel = 1 := by
  intro n fresh t
  have hwords : n.parameters.InWords := ⟨by decide, by decide, by decide⟩
  have hinstall : Router.install n.settings n.table 0 3 8 = .ok fresh :=
    Router.install_eq n (by decide) (by decide)
  have hegress : ((forward 0 .idle).run t).1 = .ok ⟨2, 1, 0⟩ := ok_of_toOption (by decide +kernel)
  have hrun : (forward 0 .idle).run t = (.ok ⟨2, 1, 0⟩, ((forward 0 .idle).run t).2) := Prod.ext hegress rfl
  obtain ⟨hport, -, hroom, -, hchannel⟩ := confined hwords hinstall rfl hrun
  exact ⟨hwords, hinstall, _, hrun, hport, hroom, hchannel⟩

end DragonflyFabric.Transit
