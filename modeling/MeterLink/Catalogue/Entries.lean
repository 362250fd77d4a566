import MeterLink.ObjectId
import MeterLink.Record.Shape

/-!
# The objects that meters expose

One row for each known object, with its identifier, its name and the shape of its record, in
ascending order of identifiers.
-/

namespace MeterLink

/-- A known object. -/
structure CatalogueEntry where
  id : ObjectId
  name : String
  shape : Shape
deriving DecidableEq, Repr

/-- The known objects, ordered by identifier. -/
def catalogue : List CatalogueEntry :=
  [
    ⟨.ofNat 0x000201, "firmware_version", .raw⟩,
    ⟨.ofNat 0x010700, "instantaneous_active_power", .raw⟩,
    ⟨.ofNat 0x010800, "total_active_import_energy", .raw⟩,
    ⟨.ofNat 0x020800, "total_active_export_energy", .raw⟩,
    ⟨.ofNat 0x030700, "instantaneous_reactive_power", .raw⟩,
    ⟨.ofNat 0x0b0700, "instantaneous_current", .raw⟩,
    ⟨.ofNat 0x0b1800, "average_current", .raw⟩,
    ⟨.ofNat 0x0c0700, "instantaneous_voltage", .u16⟩,
    ⟨.ofNat 0x0c1800, "average_voltage", .raw⟩,
    ⟨.ofNat 0x0d0000, "tariff_time_switch_element_a_or_single", .block (.fixed 80)⟩,
    ⟨.ofNat 0x0d00ff, "tariff_time_switch_element_b", .block (.fixed 80)⟩,
    ⟨.ofNat 0x0d0700, "instantaneous_power_factor", .raw⟩,
    ⟨.ofNat 0x0e0700, "instantaneous_frequency", .raw⟩,
    ⟨.ofNat 0x0e1800, "average_frequency", .raw⟩,
    ⟨.ofNat 0x150700, "element_a_instantaneous_active_power_import", .raw⟩,
    ⟨.ofNat 0x200700, "three_phase_instantaneous_voltage_l1", .u16⟩,
    ⟨.ofNat 0x290700, "element_b_instantaneous_active_power_import", .raw⟩,
    ⟨.ofNat 0x340700, "three_phase_instantaneous_voltage_l2", .u16⟩,
    ⟨.ofNat 0x480700, "three_phase_instantaneous_voltage_l3", .u16⟩,
    ⟨.ofNat 0x600100, "serial", .ascii .remainder⟩,
    ⟨.ofNat 0x608000, "hardware_version", .ascii .remainder⟩,
    ⟨.ofNat 0x800800, "time", .clock⟩,
    ⟨.ofNat 0xd7060a, "three_phase_read", .raw⟩,
    ⟨.ofNat 0xd70a0c, "three_phase_initiate_read", .raw⟩,
    ⟨.ofNat 0xd7ff10, "three_phase_serial", .raw⟩,
    ⟨.ofNat 0xffc802, "prepay_balance", .i32⟩,
    ⟨.ofNat 0xffc803, "prepay_token_send", .empty⟩,
    ⟨.ofNat 0xffc805, "tariff_active_prepayment_emergency_credit", .u32⟩,
    ⟨.ofNat 0xffc806, "tariff_active_prepayment_ecredit_availability", .u32⟩,
    ⟨.ofNat 0xffc807, "tariff_active_prepayment_debt_recovery_rate", .u32⟩,
    ⟨.ofNat 0xffc808, "tariff_future_prepayment_emergency_credit", .u32⟩,
    ⟨.ofNat 0xffc809, "tariff_future_prepayment_ecredit_availability", .u32⟩,
    ⟨.ofNat 0xffc80a, "tariff_future_prepayment_debt_recovery_rate", .u32⟩,
    ⟨.ofNat 0xffc83e, "monetary_info_transaction_count", .u16⟩,
    ⟨.ofNat 0xffc840, "monetary_info_transaction_details", .payment⟩,
    ⟨.ofNat 0xffc964, "tariff_active_gas", .u32⟩,
    ⟨.ofNat 0xffc965, "tariff_future_gas", .u32⟩,
    ⟨.ofNat 0xfff601, "tariff_future_element_b_tou_rate_1", .u32⟩,
    ⟨.ofNat 0xfff602, "tariff_future_element_b_tou_rate_2", .u32⟩,
    ⟨.ofNat 0xfff603, "tariff_future_element_b_tou_rate_3", .u32⟩,
    ⟨.ofNat 0xfff604, "tariff_future_element_b_tou_rate_4", .u32⟩,
    ⟨.ofNat 0xfff701, "tariff_active_element_b_tou_rate_1", .u32⟩,
    ⟨.ofNat 0xfff702, "tariff_active_element_b_tou_rate_2", .u32⟩,
    ⟨.ofNat 0xfff703, "tariff_active_element_b_tou_rate_3", .u32⟩,
    ⟨.ofNat 0xfff704, "tariff_active_element_b_tou_rate_4", .u32⟩,
    ⟨.ofNat 0xfff801, "tariff_future_block_1_rate_1", .u32⟩,
    ⟨.ofNat 0xfff802, "tariff_future_block_1_rate_2", .u32⟩,
    ⟨.ofNat 0xfff803, "tariff_future_block_1_rate_3", .u32⟩,
    ⟨.ofNat 0xfff804, "tariff_future_block_1_rate_4", .u32⟩,
    ⟨.ofNat 0xfff805, "tariff_future_block_1_rate_5", .u32⟩,
    ⟨.ofNat 0xfff806, "tariff_future_block_1_rate_6", .u32⟩,
    ⟨.ofNat 0xfff807, "tariff_future_block_1_rate_7", .u32⟩,
    ⟨.ofNat 0xfff808, "tariff_future_block_1_rate_8", .u32⟩,
    ⟨.ofNat 0xfff809, "tariff_future_block_2_rate_1", .u32⟩,
    ⟨.ofNat 0xfff80a, "tariff_future_block_2_rate_2", .u32⟩,
    ⟨.ofNat 0xfff80b, "tariff_future_block_2_rate_3", .u32⟩,
    ⟨.ofNat 0xfff80c, "tariff_future_block_2_rate_4", .u32⟩,
    ⟨.ofNat 0xfff80d, "tariff_future_block_2_rate_5", .u32⟩,
    ⟨.ofNat 0xfff80e, "tariff_future_block_2_rate_6", .u32⟩,
    ⟨.ofNat 0xfff80f, "tariff_future_block_2_rate_7", .u32⟩,
    ⟨.ofNat 0xfff810, "tariff_future_block_2_rate_8", .u32⟩,
    ⟨.ofNat 0xfff811, "tariff_future_block_3_rate_1", .u32⟩,
    ⟨.ofNat 0xfff812, "tariff_future_block_3_rate_2", .u32⟩,
    ⟨.ofNat 0xfff813, "tariff_future_block_3_rate_3", .u32⟩,
    ⟨.ofNat 0xfff814, "tariff_future_block_3_rate_4", .u32⟩,
    ⟨.ofNat 0xfff815, "tariff_future_block_3_rate_5", .u32⟩,
    ⟨.ofNat 0xfff816, "tariff_future_block_3_rate_6", .u32⟩,
    ⟨.ofNat 0xfff817, "tariff_future_block_3_rate_7", .u32⟩,
    ⟨.ofNat 0xfff818, "tariff_future_block_3_rate_8", .u32⟩,
    ⟨.ofNat 0xfff819, "tariff_future_block_4_rate_1", .u32⟩,
    ⟨.ofNat 0xfff81a, "tariff_future_block_4_rate_2", .u32⟩,
    ⟨.ofNat 0xfff81b, "tariff_future_block_4_rate_3", .u32⟩,
    ⟨.ofNat 0xfff81c, "tariff_future_block_4_rate_4", .u32⟩,
    ⟨.ofNat 0xfff81d, "tariff_future_block_4_rate_5", .u32⟩,
    ⟨.ofNat 0xfff81e, "tariff_future_block_4_rate_6", .u32⟩,
    ⟨.ofNat 0xfff81f, "tariff_future_block_4_rate_7", .u32⟩,
    ⟨.ofNat 0xfff820, "tariff_future_block_4_rate_8", .u32⟩,
    ⟨.ofNat 0xfff821, "tariff_future_block_5_rate_1", .u32⟩,
    ⟨.ofNat 0xfff822, "tariff_future_block_5_rate_2", .u32⟩,
    ⟨.ofNat 0xfff823, "tariff_future_block_5_rate_3", .u32⟩,
    ⟨.ofNat 0xfff824, "tariff_future_block_5_rate_4", .u32⟩,
    ⟨.ofNat 0xfff825, "tariff_future_block_5_rate_5", .u32⟩,
    ⟨.ofNat 0xfff826, "tariff_future_block_5_rate_6", .u32⟩,
    ⟨.ofNat 0xfff827, "tariff_future_block_5_rate_7", .u32⟩,
    ⟨.ofNat 0xfff828, "tariff_future_block_5_rate_8", .u32⟩,
    ⟨.ofNat 0xfff829, "tariff_future_block_6_rate_1", .u32⟩,
    ⟨.ofNat 0xfff82a, "tariff_future_block_6_rate_2", .u32⟩,
    ⟨.ofNat 0xfff82b, "tariff_future_block_6_rate_3", .u32⟩,
    ⟨.ofNat 0xfff82c, "tariff_future_block_6_rate_4", .u32⟩,
    ⟨.ofNat 0xfff82d, "tariff_future_block_6_rate_5", .u32⟩,
    ⟨.ofNat 0xfff82e, "tariff_future_block_6_rate_6", .u32⟩,
    ⟨.ofNat 0xfff82f, "tariff_future_block_6_rate_7", .u32⟩,
    ⟨.ofNat 0xfff830, "tariff_future_block_6_rate_8", .u32⟩,
    ⟨.ofNat 0xfff831, "tariff_future_block_7_rate_1", .u32⟩,
    ⟨.ofNat 0xfff832, "tariff_future_block_7_rate_2", .u32⟩,
    ⟨.ofNat 0xfff833, "tariff_future_block_7_rate_3", .u32⟩,
    ⟨.ofNat 0xfff834, "tariff_future_block_7_rate_4", .u32⟩,
    ⟨.ofNat 0xfff835, "tariff_future_block_7_rate_5", .u32⟩,
    ⟨.ofNat 0xfff836, "tariff_future_block_7_rate_6", .u32⟩,
    ⟨.ofNat 0xfff837, "tariff_future_block_7_rate_7", .u32⟩,
    ⟨.ofNat 0xfff838, "tariff_future_block_7_rate_8", .u32⟩,
    ⟨.ofNat 0xfff839, "tariff_future_block_8_rate_1", .u32⟩,
    ⟨.ofNat 0xfff83a, "tariff_future_block_8_rate_2", .u32⟩,
    ⟨.ofNat 0xfff83b, "tariff_future_block_8_rate_3", .u32⟩,
    ⟨.ofNat 0xfff83c, "tariff_future_block_8_rate_4", .u32⟩,
    ⟨.ofNat 0xfff83d, "tariff_future_block_8_rate_5", .u32⟩,
    ⟨.ofNat 0xfff83e, "tariff_future_block_8_rate_6", .u32⟩,
    ⟨.ofNat 0xfff83f, "tariff_future_block_8_rate_7", .u32⟩,
    ⟨.ofNat 0xfff840, "tariff_future_block_8_rate_8", .u32⟩,
    ⟨.ofNat 0xfff901, "tariff_active_block_1_rate_1", .u32⟩,
    ⟨.ofNat 0xfff902, "tariff_active_block_1_rate_2", .u32⟩,
    ⟨.ofNat 0xfff903, "tariff_active_block_1_rate_3", .u32⟩,
    ⟨.ofNat 0xfff904, "tariff_active_block_1_rate_4", .u32⟩,
    ⟨.ofNat 0xfff905, "tariff_active_block_1_rate_5", .u32⟩,
    ⟨.ofNat 0xfff906, "tariff_active_block_1_rate_6", .u32⟩,
    ⟨.ofNat 0xfff907, "tariff_active_block_1_rate_7", .u32⟩,
    ⟨.ofNat 0xfff908, "tariff_active_block_1_rate_8", .u32⟩,
    ⟨.ofNat 0xfff909, "tariff_active_block_2_rate_1", .u32⟩,
    ⟨.ofNat 0xfff90a, "tariff_active_block_2_rate_2", .u32⟩,
    ⟨.ofNat 0xfff90b, "tariff_active_block_2_rate_3", .u32⟩,
    ⟨.ofNat 0xfff90c, "tariff_active_block_2_rate_4", .u32⟩,
    ⟨.ofNat 0xfff90d, "tariff_active_block_2_rate_5", .u32⟩,
    ⟨.ofNat 0xfff90e, "tariff_active_block_2_rate_6", .u32⟩,
    ⟨.ofNat 0xfff90f, "tariff_active_block_2_rate_7", .u32⟩,
    ⟨.ofNat 0xfff910, "tariff_active_block_2_rate_8", .u32⟩,
    ⟨.ofNat 0xfff911, "tariff_active_block_3_rate_1", .u32⟩,
    ⟨.ofNat 0xfff912, "tariff_active_block_3_rate_2", .u32⟩,
    ⟨.ofNat 0xfff913, "tariff_active_block_3_rate_3", .u32⟩,
    ⟨.ofNat 0xfff914, "tariff_active_block_3_rate_4", .u32⟩,
    ⟨.ofNat 0xfff915, "tariff_active_block_3_rate_5", .u32⟩,
    ⟨.ofNat 0xfff916, "tariff_active_block_3_rate_6", .u32⟩,
    ⟨.ofNat 0xfff917, "tariff_active_block_3_rate_7", .u32⟩,
    ⟨.ofNat 0xfff918, "tariff_active_block_3_rate_8", .u32⟩,
    ⟨.ofNat 0xfff919, "tariff_active_block_4_rate_1", .u32⟩,
    ⟨.ofNat 0xfff91a, "tariff_active_block_4_rate_2", .u32⟩,
    ⟨.ofNat 0xfff91b, "tariff_active_block_4_rate_3", .u32⟩,
    ⟨.ofNat 0xfff91c, "tariff_active_block_4_rate_4", .u32⟩,
    ⟨.ofNat 0xfff91d, "tariff_active_block_4_rate_5", .u32⟩,
    ⟨.ofNat 0xfff91e, "tariff_active_block_4_rate_6", .u32⟩,
    ⟨.ofNat 0xfff91f, "tariff_active_block_4_rate_7", .u32⟩,
    ⟨.ofNat 0xfff920, "tariff_active_block_4_rate_8", .u32⟩,
    ⟨.ofNat 0xfff921, "tariff_active_block_5_rate_1", .u32⟩,
    ⟨.ofNat 0xfff922, "tariff_active_block_5_rate_2", .u32⟩,
    ⟨.ofNat 0xfff923, "tariff_active_block_5_rate_3", .u32⟩,
    ⟨.ofNat 0xfff924, "tariff_active_block_5_rate_4", .u32⟩,
    ⟨.ofNat 0xfff925, "tariff_active_block_5_rate_5", .u32⟩,
    ⟨.ofNat 0xfff926, "tariff_active_block_5_rate_6", .u32⟩,
    ⟨.ofNat 0xfff927, "tariff_active_block_5_rate_7", .u32⟩,
    ⟨.ofNat 0xfff928, "tariff_active_block_5_rate_8", .u32⟩,
    ⟨.ofNat 0xfff929, "tariff_active_block_6_rate_1", .u32⟩,
    ⟨.ofNat 0xfff92a, "tariff_active_block_6_rate_2", .u32⟩,
    ⟨.ofNat 0xfff92b, "tariff_active_block_6_rate_3", .u32⟩,
    ⟨.ofNat 0xfff92c, "tariff_active_block_6_rate_4", .u32⟩,
    ⟨.ofNat 0xfff92d, "tariff_active_block_6_rate_5", .u32⟩,
    ⟨.ofNat 0xfff92e, "tariff_active_block_6_rate_6", .u32⟩,
    ⟨.ofNat 0xfff92f, "tariff_active_block_6_rate_7", .u32⟩,
    ⟨.ofNat 0xfff930, "tariff_active_block_6_rate_8", .u32⟩,
    ⟨.ofNat 0xfff931, "tariff_active_block_7_rate_1", .u32⟩,
    ⟨.ofNat 0xfff932, "tariff_active_block_7_rate_2", .u32⟩,
    ⟨.ofNat 0xfff933, "tariff_active_block_7_rate_3", .u32⟩,
    ⟨.ofNat 0xfff934, "tariff_active_block_7_rate_4", .u32⟩,
    ⟨.ofNat 0xfff935, "tariff_active_block_7_rate_5", .u32⟩,
    ⟨.ofNat 0xfff936, "tariff_active_block_7_rate_6", .u32⟩,
    ⟨.ofNat 0xfff937, "tariff_active_block_7_rate_7", .u32⟩,
    ⟨.ofNat 0xfff938, "tariff_active_block_7_rate_8", .u32⟩,
    ⟨.ofNat 0xfff939, "tariff_active_block_8_rate_1", .u32⟩,
    ⟨.ofNat 0xfff93a, "tariff_active_block_8_rate_2", .u32⟩,
    ⟨.ofNat 0xfff93b, "tariff_active_block_8_rate_3", .u32⟩,
    ⟨.ofNat 0xfff93c, "tariff_active_block_8_rate_4", .u32⟩,
    ⟨.ofNat 0xfff93d, "tariff_active_block_8_rate_5", .u32⟩,
    ⟨.ofNat 0xfff93e, "tariff_active_block_8_rate_6", .u32⟩,
    ⟨.ofNat 0xfff93f, "tariff_active_block_8_rate_7", .u32⟩,
    ⟨.ofNat 0xfff940, "tariff_active_block_8_rate_8", .u32⟩,
    ⟨.ofNat 0xfffd1d, "csq_net_op", .bits signalLayout⟩,
    ⟨.ofNat 0xffff0d, "prepay_enabled_flag", .u8⟩,
    ⟨.ofNat 0xffff1e, "tariff_active_threshold_values", .u16s 7⟩,
    ⟨.ofNat 0xffff1f, "tariff_future_threshold_values", .u16s 7⟩,
    ⟨.ofNat 0xffff20, "tariff_active_threshold_mask", .bits thresholdMaskLayout⟩,
    ⟨.ofNat 0xffff21, "tariff_future_threshold_mask", .bits thresholdMaskLayout⟩,
    ⟨.ofNat 0xffff22, "tariff_active_standing_charge", .u32⟩,
    ⟨.ofNat 0xffff23, "tariff_future_standing_charge", .u32⟩,
    ⟨.ofNat 0xffff24, "tariff_future_activation_datetime", .u32⟩,
    ⟨.ofNat 0xffff2b, "tariff_active_tou_rate_current", .u8⟩,
    ⟨.ofNat 0xffff2c, "tariff_active_block_rate_current", .u8⟩,
    ⟨.ofNat 0xffff2d, "tariff_active_price_index_current", .u8⟩,
    ⟨.ofNat 0xffff2e, "tariff_active_price", .u32⟩,
    ⟨.ofNat 0xffff4b, "tariff_active_element_b_tou_rate_current", .u8⟩,
    ⟨.ofNat 0xffff4c, "tariff_active_element_b_price_index_current", .u8⟩,
    ⟨.ofNat 0xffff4d, "tariff_active_element_b_price", .u32⟩,
    ⟨.ofNat 0xffff4e, "tariff_active_tou_flag", .raw⟩,
    ⟨.ofNat 0xffff4f, "tariff_future_tou_flag", .u8⟩,
    ⟨.ofNat 0xfffff8, "element_b", .raw⟩,
    ⟨.ofNat 0xfffffc, "element_a", .raw⟩
  ]

end MeterLink
